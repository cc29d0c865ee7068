import Downline.Proofs.Token.Origins
import Downline.Proofs.Token.Rewriting

/-!
# What references mean

A component refers to a token by the token's dotted path. The reference means the name of the
token's property, and that property is declared before those of all components (`Means`). The
documents may hold several tokens with the same path; then the reference means the property of each
of them, for they share it.

A reference is replaced exactly if it means something. It can still be lost with the text around it:
if the prefix of the names has a brace, no name can stand in a text, and every text with a reference
is left out.

Nothing is said here about properties that are declared twice. A name that stands for two tokens has
the value that is declared last, which may be the other token's.
-/

namespace Downline.Token

open Json

/-- The name that a reference means in the style sheet of the documents. -/
def Sources.meaning (sources : Sources) (varPrefix : String) : String → Option String :=
  propertyOf? (tokenProperties sources varPrefix)

/-- The properties that the components of the documents have in their style sheet. -/
def Sources.componentDeclarations (sources : Sources) (varPrefix : String) :
    List ComponentProperty :=
  allComponentProperties (sources.meaning varPrefix) sources.components

/-- The line that declares a token. -/
def tokenLine (varPrefix : String) (token : Origin × Value) : String :=
  Property.line (token.1.property varPrefix) (displayText token.2)

/-- The lines of a style sheet: one for each token, then one for each property of a component. -/
theorem stylesheetLines_eq (sources : Sources) (varPrefix : String) :
    stylesheetLines sources varPrefix =
      [":root \x7b"] ++ (tokens sources).map (tokenLine varPrefix)
        ++ (sources.componentDeclarations varPrefix).map (ComponentProperty.line varPrefix)
        ++ ["\x7d", ""] := by
  have htokens : (tokenProperties sources varPrefix).map (fun p => Property.line p.name p.value) =
      (tokens sources).map (tokenLine varPrefix) := by
    rw [tokenProperties_eq, List.map_map]
    rfl
  rw [← htokens]
  rfl

/-- A reference means a name: it is the path of a token of the documents, and whichever token has
that path, the name is that of its property and is declared with its value, in front of all
components. -/
structure Means (sources : Sources) (varPrefix reference name : String) : Prop where
  exported : ∃ (o : Origin) (v : Value), o.Holds sources v ∧ o.path = reference
  named : ∀ (o : Origin) (v : Value), o.Holds sources v → o.path = reference →
    o.property varPrefix = name
  declared : ∀ (o : Origin) (v : Value), o.Holds sources v → o.path = reference →
    ∃ before between, stylesheetLines sources varPrefix =
      [":root \x7b"] ++ before ++ [Property.line name (displayText v)] ++ between
        ++ (sources.componentDeclarations varPrefix).map (ComponentProperty.line varPrefix)
        ++ ["\x7d", ""]

variable {sources : Sources} {varPrefix reference name : String}

/-! ## The table of references -/

/-- Every token stands among the lines in front of the components. -/
theorem exists_stylesheetLines_eq {o : Origin} {v : Value} (h : o.Holds sources v) :
    ∃ before between, stylesheetLines sources varPrefix =
      [":root \x7b"] ++ before ++ [Property.line (o.property varPrefix) (displayText v)] ++ between
        ++ (sources.componentDeclarations varPrefix).map (ComponentProperty.line varPrefix)
        ++ ["\x7d", ""] := by
  obtain ⟨before, after, htokens⟩ := List.append_of_mem (mem_tokens_iff.mpr h)
  refine ⟨before.map (tokenLine varPrefix), after.map (tokenLine varPrefix), ?_⟩
  rw [stylesheetLines_eq, htokens, List.map_append, List.map_cons]
  simp only [List.append_assoc, List.cons_append, List.nil_append, tokenLine]

/-- The table answers the name of a token with the path that is asked for. -/
theorem exists_of_meaning (h : sources.meaning varPrefix reference = some name) :
    ∃ (o : Origin) (v : Value), o.Holds sources v ∧ o.path = reference ∧
      o.property varPrefix = name := by
  obtain ⟨p, hfind, rfl⟩ := Option.map_eq_some_iff.mp h
  have hpath : p.reference = reference := by simpa only [beq_iff_eq] using List.find?_some hfind
  have hmem := List.mem_reverse.mp (List.mem_of_find?_eq_some hfind)
  rw [tokenProperties_eq, List.mem_map] at hmem
  obtain ⟨⟨o, v⟩, htoken, rfl⟩ := hmem
  exact ⟨o, v, mem_tokens_iff.mp htoken, hpath, rfl⟩

/-- Which of several tokens with one path the table has kept makes no difference. -/
theorem meaning_path {o : Origin} {v : Value} (h : o.Holds sources v) (varPrefix : String) :
    sources.meaning varPrefix o.path = some (o.property varPrefix) := by
  have hmem : Origin.toProperty varPrefix (o, v) ∈ (tokenProperties sources varPrefix).reverse := by
    rw [List.mem_reverse, tokenProperties_eq]
    exact List.mem_map_of_mem (mem_tokens_iff.mpr h)
  cases hmeaning : sources.meaning varPrefix o.path with
  | none =>
    have hnone := List.find?_eq_none.mp (Option.map_eq_none_iff.mp hmeaning) _ hmem
    exact absurd (beq_self_eq_true _) hnone
  | some name =>
    obtain ⟨o', _, _, hpath, rfl⟩ := exists_of_meaning hmeaning
    rw [Origin.property_eq_of_path_eq hpath]

/-- **A reference is in the table exactly if it means something.** -/
theorem meaning_eq_some_iff :
    sources.meaning varPrefix reference = some name ↔ Means sources varPrefix reference name := by
  constructor
  · intro h
    obtain ⟨o, v, hholds, rfl, rfl⟩ := exists_of_meaning h
    have hnamed (o' : Origin) (hpath : o'.path = o.path) :=
      Origin.property_eq_of_path_eq hpath varPrefix
    refine ⟨⟨o, v, hholds, rfl⟩, fun o' _ _ hpath => hnamed o' hpath, fun o' _ hholds' hpath => ?_⟩
    rw [← hnamed o' hpath]
    exact exists_stylesheetLines_eq hholds'
  · intro h
    obtain ⟨o, v, hholds, rfl⟩ := h.exported
    rw [meaning_path hholds, h.named o v hholds rfl]

/-! ## Names and braces -/

theorem isBrace_of_isPlain {c : Char} (h : isPlain c = true) : isBrace c = false :=
  isBrace_eq_false_of (fun c => isPlain c = true) (by decide) (by decide) h

/-- Sanitized names have no braces. -/
theorem braceFree_sanitize (name : String) : BraceFree (sanitize name).toList := by
  intro c hc
  rcases mem_sanitize hc with hplain | rfl
  · exact isBrace_of_isPlain hplain
  · rfl

/-- A property's name has no braces but those of the prefix. -/
theorem Origin.braceFree_property (o : Origin) (h : BraceFree varPrefix.toList) :
    BraceFree (o.property varPrefix).toList := by
  have hlead : BraceFree "--".toList := by decide
  have hdash : BraceFree "-".toList := by decide
  have hword : BraceFree o.kind.word.toList := by cases o.kind <;> decide
  simp only [Origin.property, Kind.property, String.toList_append, braceFree_append]
  exact ⟨⟨⟨⟨⟨hlead, h⟩, hdash⟩, hword⟩, hdash⟩, braceFree_sanitize _⟩

theorem Means.braceFree (h : Means sources varPrefix reference name)
    (hfree : BraceFree varPrefix.toList) : BraceFree name.toList := by
  obtain ⟨o, v, hholds, hpath⟩ := h.exported
  rw [← h.named o v hholds hpath]
  exact o.braceFree_property hfree

/-! ## Texts of components -/

/-- A text of a component is rewritten with what its references mean. -/
theorem componentText?_meaning_iff {s t : String} :
    componentText? (sources.meaning varPrefix) (.text s) = some t ↔
      Rewritten (fun reference name => Means sources varPrefix reference name ∧
        BraceFree name.toList) s.toList t.toList := by
  rw [componentText?_eq_some_iff]
  simp only [meaning_eq_some_iff]

/-- A text that is nothing but a reference becomes the name that it means. -/
theorem componentText?_reference (hmeans : Means sources varPrefix reference name)
    (hfree : BraceFree varPrefix.toList) (hreference : BraceFree reference.toList)
    (hfilled : reference.toList ≠ []) :
    componentText? (sources.meaning varPrefix) (.text ("\x7b" ++ reference ++ "\x7d")) =
      some ("var(" ++ name ++ ")") := by
  have hknown : Means sources varPrefix (String.ofList reference.toList) name := by
    rwa [String.ofList_toList]
  have hgroup : Rewritten (fun reference name => Means sources varPrefix reference name ∧
      BraceFree name.toList) _ _ :=
    .group hfilled hreference ⟨hknown, hmeans.braceFree hfree⟩ .nil
  have hopen : "\x7b".toList = ['\x7b'] := rfl
  have hclose : "\x7d".toList = ['\x7d'] := rfl
  have hend : ")".toList = [')'] := rfl
  rw [componentText?_meaning_iff]
  simpa only [String.toList_append, hopen, hclose, hend, List.append_nil, List.cons_append,
    List.nil_append] using hgroup

theorem Origin.path_ne_nil (o : Origin) : o.path.toList ≠ [] := by
  have hlead : o.lead.toList ≠ [] := by cases o <;> simp only [lead] <;> decide
  rw [path_eq, String.toList_append]
  exact List.append_ne_nil_of_left_ne_nil hlead _

/-- **References are rewritten faithfully.** A component declares the text of each of its values, in
order. Whatever reference is replaced there, it means the name that it is replaced by. A text is
declared exactly if all its references mean names that may stand in it, and if the prefix has no
brace, a reference to a token whose path has none always does. -/
theorem references_faithful (sources : Sources) (varPrefix : String) :
    (∀ reference name, sources.meaning varPrefix reference = some name ↔
      Means sources varPrefix reference name) ∧
    sources.componentDeclarations varPrefix =
      (componentLeaves sources.components).filterMap (fun (path, v) =>
        (componentText? (sources.meaning varPrefix) v).map (⟨path, ·⟩)) ∧
    (∀ s t, componentText? (sources.meaning varPrefix) (.text s) = some t ↔
      Rewritten (fun reference name => Means sources varPrefix reference name ∧
        BraceFree name.toList) s.toList t.toList) ∧
    (BraceFree varPrefix.toList → ∀ (o : Origin) (v : Value), o.Holds sources v →
      BraceFree o.path.toList →
      componentText? (sources.meaning varPrefix) (.text ("\x7b" ++ o.path ++ "\x7d")) =
        some ("var(" ++ o.property varPrefix ++ ")")) := by
  refine ⟨fun _ _ => meaning_eq_some_iff, allComponentProperties_eq _,
    fun _ _ => componentText?_meaning_iff, fun hfree o v hholds hpath => ?_⟩
  have hmeans := meaning_eq_some_iff.mp (meaning_path hholds varPrefix)
  exact componentText?_reference hmeans hfree hpath o.path_ne_nil

/-- Documents with two entries of the scale that have one path. -/
def sharedPath : Sources where
  colors := .null
  typography := .object [("scale", .object [("a.b", .object [("c", .text "1px")]),
    ("a", .object [("b.c", .text "2px")])])]
  components := .null

theorem references_faithful_sharedPath :
    (Origin.scale "a.b" "c").path = (Origin.scale "a" "b.c").path ∧
    componentText? (sharedPath.meaning "p") (.text "\x7btypography.scale.a.b.c\x7d") =
      some "var(--p-typography-a-b-c)" := by
  have hholds : (Origin.scale "a.b" "c").Holds sharedPath (.text "1px") :=
    ⟨.object [("c", .text "1px")], .head _, .head _⟩
  have hreference : "\x7btypography.scale.a.b.c\x7d" =
      "\x7b" ++ (Origin.scale "a.b" "c").path ++ "\x7d" := by decide +kernel
  have hname : "var(--p-typography-a-b-c)" =
      "var(" ++ (Origin.scale "a.b" "c").property "p" ++ ")" := by decide +kernel
  refine ⟨by decide +kernel, ?_⟩
  rw [hreference, hname]
  exact (references_faithful sharedPath "p").2.2.2 (by decide) _ _ hholds (by decide)

end Downline.Token
