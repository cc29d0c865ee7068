/-!
# File names

A file name is a run of bytes, which need not be the bytes of a text. Names are compared byte by
byte, and what stands behind the last point of a name is its extension.
-/

namespace Downline.Files

/-- The bytes of a text. -/
def bytesOf (text : String) : List UInt8 := text.toUTF8.data.toList

/-- The text that bytes make up, if they do. -/
def textOf? (bytes : List UInt8) : Option String := String.fromUTF8? ⟨bytes.toArray⟩

theorem bytesOf_append (a b : String) : bytesOf (a ++ b) = bytesOf a ++ bytesOf b := by
  simp [bytesOf]

theorem textOf?_eq_some_iff {bytes : List UInt8} {text : String} :
    textOf? bytes = some text ↔ bytes = bytesOf text := by
  rw [textOf?, String.fromUTF8?]
  constructor
  · intro h
    split at h
    next hvalid =>
      cases h
      rfl
    next => cases h
  · rintro rfl
    have hbytes : (⟨(bytesOf text).toArray⟩ : ByteArray) = text.toUTF8 := rfl
    have hvalid : text.toUTF8.IsValidUTF8 := text.isValidUTF8
    rw [hbytes, dif_pos hvalid]
    rfl

theorem bytesOf_inj {a b : String} : bytesOf a = bytesOf b ↔ a = b := by
  refine ⟨fun h => ?_, congrArg bytesOf⟩
  have hsome := textOf?_eq_some_iff.mpr h
  rw [textOf?_eq_some_iff.mpr rfl] at hsome
  exact Option.some.inj hsome

/-- The byte of a point. -/
def point : UInt8 := 0x2E

/-- A name cut at its last point into stem and extension. A name without a point, with its only
point in front, or of two points has no extension. -/
def stemAndExtension (name : List UInt8) : List UInt8 × Option (List UInt8) :=
  let backwards := name.reverse
  match backwards.dropWhile (· != point) with
  | [] => (name, none)
  | _ :: stem =>
    if stem.isEmpty || name == [point, point] then (name, none)
    else (stem.reverse, some (backwards.takeWhile (· != point)).reverse)

/-- A name has a stem and an extension without points exactly if it is made of them. -/
theorem stemAndExtension_eq_iff {name stem extension : List UInt8} (hne : extension ≠ [])
    (hplain : point ∉ extension) :
    stemAndExtension name = (stem, some extension) ↔
      stem ≠ [] ∧ name = stem ++ point :: extension := by
  constructor
  · intro h
    rw [stemAndExtension] at h
    split at h
    next => cases h
    next d rest hdrop =>
      split at h
      next => cases h
      next hcut =>
        cases h
        have hd : d = point := by
          have hhead := List.head?_dropWhile_not (· != point) name.reverse
          rw [hdrop] at hhead
          simpa using hhead
        have hsplit := List.takeWhile_append_dropWhile (p := (· != point)) (l := name.reverse)
        rw [hdrop, hd] at hsplit
        refine ⟨fun hnil => hcut (by simp [List.reverse_eq_nil_iff.mp hnil]), ?_⟩
        have hname := congrArg List.reverse hsplit
        rw [List.reverse_reverse, List.reverse_append, List.reverse_cons, List.append_assoc]
          at hname
        exact hname.symm
  · rintro ⟨hstem, rfl⟩
    have hkept : ∀ b ∈ extension.reverse, (b != point) = true := fun b hb =>
      bne_iff_ne.mpr fun heq => hplain (heq ▸ List.mem_reverse.mp hb)
    have hbackwards : (stem ++ point :: extension).reverse =
        extension.reverse ++ point :: stem.reverse := by simp
    have hdrop : (extension.reverse ++ point :: stem.reverse).dropWhile (· != point) =
        point :: stem.reverse := List.dropWhile_append_of_pos hkept
    have htake : (extension.reverse ++ point :: stem.reverse).takeWhile (· != point) =
        extension.reverse := (List.takeWhile_append_of_pos hkept).trans (List.append_nil _)
    have hpoints : stem ++ point :: extension ≠ [point, point] := fun h => by
      have hlength := congrArg List.length h
      have hstemLength := List.length_pos_iff.mpr hstem
      have hextensionLength := List.length_pos_iff.mpr hne
      simp only [List.length_append, List.length_cons, List.length_nil] at hlength
      omega
    rw [stemAndExtension]
    simp [hbackwards, hdrop, htake, hstem, hpoints]

end Downline.Files
