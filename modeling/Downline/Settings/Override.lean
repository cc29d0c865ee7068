import Downline.Settings.Basic
import Downline.Environment.Basic
import Downline.Failure
import Downline.Text.Lower

/-!
# Settings from the environment

A variable specifies a setting if its name is `ORGTREE__` and the name of the setting, in any letter
case. Of several variables for one setting the last one counts. The shape of trees may be written in
any letter case too.
-/

namespace Downline.Settings

/-- What the name of a variable for a setting begins with, in lower case. -/
def overridePrefix : String := "orgtree__"

/-- The value that the environment gives a setting. -/
def override? (e : Environment) (setting : String) : Option String :=
  let isFor := fun (name, _) => Text.lower name.toList == (overridePrefix ++ setting).toList
  (e.bindings.reverse.find? isFor).map Prod.snd

/-- Of the variables whose name is `ORGTREE__` and the name of the setting, in any letter case, the
last one gives the value. -/
theorem override?_eq_some_iff {e : Environment} {setting value : String} :
    override? e setting = some value ↔
      ∃ before name after, e.bindings = before ++ (name, value) :: after ∧
        Text.lower name.toList = ("orgtree__" ++ setting).toList ∧
        ∀ binding ∈ after, Text.lower binding.1.toList ≠ ("orgtree__" ++ setting).toList := by
  have hreverse (front behind : List (String × String)) (binding : String × String) :
      (front ++ binding :: behind).reverse = behind.reverse ++ binding :: front.reverse := by
    rw [List.reverse_append, List.reverse_cons, List.append_assoc, List.singleton_append]
  simp only [override?, Option.map_eq_some_iff, List.find?_eq_some_iff_append]
  constructor
  · rintro ⟨⟨name, _⟩, ⟨hname, behind, front, hbindings, hbehind⟩, rfl⟩
    refine ⟨front.reverse, name, behind.reverse, ?_, eq_of_beq hname, fun binding hbinding => ?_⟩
    · rw [List.reverse_eq_iff.mp hbindings, hreverse]
    · exact bne_iff_ne.mp (hbehind binding (List.mem_reverse.mp hbinding))
  · rintro ⟨before, name, after, hbindings, hname, hafter⟩
    refine ⟨(name, value), ⟨beq_iff_eq.mpr hname, after.reverse, before.reverse, ?_,
      fun binding hbinding => ?_⟩, rfl⟩
    · rw [hbindings, hreverse]
    · exact bne_iff_ne.mpr (hafter binding (List.mem_reverse.mp hbinding))

/-- Without such a variable there is no value. -/
theorem override?_eq_none_iff {e : Environment} {setting : String} :
    override? e setting = none ↔
      ∀ binding ∈ e.bindings,
        Text.lower binding.1.toList ≠ ("orgtree__" ++ setting).toList := by
  simp only [override?, Option.map_eq_none_iff, List.find?_eq_none, List.mem_reverse]
  exact forall₂_congr fun binding _ => not_congr beq_iff_eq

example : override? ⟨[("ORGTREE__DIST_DIR", "a"), ("OrgTree__Dist_Dir", "b"),
    ("ORGTREE_DIST_DIR", "c")], none⟩ "dist_dir" = some "b" := by
  decide +kernel

/-- The shape that the environment specifies. -/
def treeTypeOverride (e : Environment) : Except ConfigFault (Option TreeType) :=
  match override? e "tree_type" with
  | none => .ok none
  | some value =>
    let name := String.ofList (Text.lower value.toList)
    match TreeType.ofName? name with
    | none => .error (.unknownTreeType name)
    | some shape => .ok (some shape)

/-- The layer that the environment specifies. -/
def Layer.ofEnvironment (e : Environment) : Except ConfigFault Layer :=
  match treeTypeOverride e with
  | .error fault => .error fault
  | .ok treeType =>
    .ok ⟨override? e "tokens_dir", override? e "dist_dir", override? e "var_prefix", treeType⟩

end Downline.Settings
