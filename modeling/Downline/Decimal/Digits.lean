/-!
# Decimal digits

`Digits.ofNat` writes a natural number in decimal, without leading zeros, and `Digits.toNat` reads
digits back; reading what was written gives the number again (`toNat_ofNat`). `Digits.span` cuts a
text after its leading digits: digits are what it takes off the front of a text that does not go on
with one (`span_append`, `span_parts`).
-/

namespace Downline.Decimal

/-- A text does not go on with a character of the given kind. -/
def Stops (kind : Char → Bool) (rest : List Char) : Prop := ∀ c ∈ rest.head?, kind c = false

@[simp] theorem stops_nil (kind : Char → Bool) : Stops kind [] := nofun

@[simp] theorem stops_cons {kind : Char → Bool} {c : Char} {rest : List Char} :
    Stops kind (c :: rest) ↔ kind c = false := by
  simp [Stops]

theorem Stops.append {kind : Char → Bool} {cs rest : List Char} (hcs : Stops kind cs)
    (hrest : Stops kind rest) : Stops kind (cs ++ rest) := by
  cases cs with
  | nil => exact hrest
  | cons c cs => exact stops_cons.mpr (stops_cons.mp hcs)

namespace Digits

/-- The digit of a number below ten. -/
def digitChar (d : Nat) : Char := Char.ofNat ('0'.toNat + d)

/-- The number of a decimal digit. -/
def digitValue (c : Char) : Nat := c.toNat - '0'.toNat

/-- The digits of a number, the most significant first. -/
def ofNat (n : Nat) : List Char :=
  if n < 10 then [digitChar n] else ofNat (n / 10) ++ [digitChar (n % 10)]

/-- The number that digits denote, after a number already read. -/
def toNatAfter (read : Nat) (ds : List Char) : Nat :=
  ds.foldl (fun n d => n * 10 + digitValue d) read

/-- The number that digits denote. -/
def toNat (ds : List Char) : Nat := toNatAfter 0 ds

/-- The leading digits of a text, and the rest. -/
def span : List Char → List Char × List Char
  | [] => ([], [])
  | c :: cs => if c.isDigit then ((c :: (span cs).1), (span cs).2) else ([], c :: cs)

theorem digitValue_digitChar : ∀ d, d < 10 → digitValue (digitChar d) = d := by decide

theorem isDigit_digitChar : ∀ d, d < 10 → (digitChar d).isDigit = true := by decide

theorem toNatAfter_append (read : Nat) (ds es : List Char) :
    toNatAfter read (ds ++ es) = toNatAfter (toNatAfter read ds) es := List.foldl_append

theorem toNat_ofNat (n : Nat) : toNat (ofNat n) = n := by
  fun_induction ofNat n with
  | case1 n h => simp [toNat, toNatAfter, digitValue_digitChar n h]
  | case2 n h ih =>
    rw [toNat] at ih ⊢
    rw [toNatAfter_append, ih]
    simp only [toNatAfter, List.foldl_cons, List.foldl_nil]
    rw [digitValue_digitChar _ (Nat.mod_lt _ (by decide))]
    omega

theorem isDigit_of_mem_ofNat (n : Nat) : ∀ c ∈ ofNat n, c.isDigit = true := by
  fun_induction ofNat n with
  | case1 n h => simpa using isDigit_digitChar n h
  | case2 n h ih =>
    intro c hc
    rcases List.mem_append.1 hc with hc | hc
    · exact ih c hc
    · rw [List.mem_singleton.1 hc]
      exact isDigit_digitChar _ (Nat.mod_lt _ (by decide))

theorem ofNat_ne_nil (n : Nat) : ofNat n ≠ [] := by
  fun_induction ofNat n <;> simp

/-- A zero is written only if nothing follows it. -/
theorem ofNat_ne_zero_cons (n : Nat) (d : Char) (ds : List Char) : ofNat n ≠ '0' :: d :: ds := by
  fun_induction ofNat n generalizing d ds with
  | case1 n h => simp
  | case2 n h ih =>
    intro heq
    cases hfront : ofNat (n / 10) with
    | nil => exact ofNat_ne_nil _ hfront
    | cons c front =>
      rw [hfront, List.cons_append] at heq
      obtain rfl : c = '0' := (List.cons.inj heq).1
      cases front with
      | nil =>
        have hzero := toNat_ofNat (n / 10)
        rw [hfront] at hzero
        have : n / 10 = 0 := hzero.symm
        omega
      | cons e front => exact ih e front hfront

/-! ## Leading digits -/

theorem span_append {ds rest : List Char} (hds : ∀ c ∈ ds, c.isDigit = true)
    (hrest : Stops Char.isDigit rest) : span (ds ++ rest) = (ds, rest) := by
  induction ds with
  | nil =>
    cases rest with
    | nil => rfl
    | cons c rest => simp [span, stops_cons.mp hrest]
  | cons c ds ih =>
    obtain ⟨hc, hds⟩ := List.forall_mem_cons.mp hds
    simp [span, hc, ih hds]

theorem span_parts {cs ds rest : List Char} (h : span cs = (ds, rest)) :
    cs = ds ++ rest ∧ (∀ c ∈ ds, c.isDigit = true) ∧ Stops Char.isDigit rest := by
  induction cs generalizing ds with
  | nil =>
    cases h
    exact ⟨rfl, nofun, stops_nil _⟩
  | cons c cs ih =>
    rw [span] at h
    split at h
    next hc =>
      cases h
      obtain ⟨hcs, hds, hrest⟩ := ih rfl
      exact ⟨congrArg (c :: ·) hcs, List.forall_mem_cons.mpr ⟨hc, hds⟩, hrest⟩
    next hc =>
      cases h
      exact ⟨rfl, nofun, stops_cons.mpr (Bool.eq_false_iff.mpr hc)⟩

end Digits

end Downline.Decimal
