import Downline.Proofs.Token.Rewriting

/-!
# Groups of braces in a text

A text is made of groups if it is plain text, a group of braces, plain text again, and so on, where
every group holds a reference that means a name (`written`). Such a text is rewritten group by
group, and nothing comes between a name and the text around its group (`rewritten`).

Every other text has a flaw (`Flawed`). A flaw is told by one brace and the next brace on one side
of it: an opening brace must be followed by a closing one, a closing brace must follow an opening
one, and what is between them must mean something. What else the text holds is of no account, so one
flaw is enough, wherever it is.

A text may have several flaws. Nothing is said about which of them is met first.
-/

namespace Downline.Token

open Json

/-- A group of braces: the reference inside, the name that is put in its place, and the plain text
up to the next group. -/
structure BraceGroup where
  reference : List Char
  name : String
  after : List Char

namespace BraceGroup

/-- A group that is replaced: its reference is not empty, has no brace and means the name. -/
structure Replaces (means : String → String → Prop) (g : BraceGroup) : Prop where
  filled : g.reference ≠ []
  plain : BraceFree g.reference
  known : means (String.ofList g.reference) g.name
  after_plain : BraceFree g.after

end BraceGroup

/-- Plain text and groups, as they are written. -/
def written (lead : List Char) (groups : List BraceGroup) : List Char :=
  lead ++ groups.flatMap fun g => '\x7b' :: g.reference ++ '\x7d' :: g.after

/-- Plain text and groups, with names in place of the references. -/
def rewritten (lead : List Char) (groups : List BraceGroup) : List Char :=
  lead ++ groups.flatMap fun g => "var(".toList ++ g.name.toList ++ [')'] ++ g.after

/-- What is wrong with a text that is not made of groups. -/
inductive Flawed (means : String → String → Prop) : List Char → Prop where
  /-- An opening brace is the last brace. -/
  | unclosed (before : List Char) {plain : List Char} (h : BraceFree plain) :
      Flawed means (before ++ '\x7b' :: plain)
  /-- Two opening braces follow each other. -/
  | nested (before after : List Char) {plain : List Char} (h : BraceFree plain) :
      Flawed means (before ++ '\x7b' :: plain ++ '\x7b' :: after)
  /-- A closing brace is the first brace. -/
  | unopened (after : List Char) {plain : List Char} (h : BraceFree plain) :
      Flawed means (plain ++ '\x7d' :: after)
  /-- Two closing braces follow each other. -/
  | closedTwice (before after : List Char) {plain : List Char} (h : BraceFree plain) :
      Flawed means (before ++ '\x7d' :: plain ++ '\x7d' :: after)
  /-- A group has nothing in it. -/
  | empty (before after : List Char) : Flawed means (before ++ '\x7b' :: '\x7d' :: after)
  /-- A group holds a reference that means nothing. -/
  | unresolved (before after : List Char) {reference : List Char} (h : BraceFree reference)
      (unknown : ∀ name, ¬ means (String.ofList reference) name) :
      Flawed means (before ++ '\x7b' :: reference ++ '\x7d' :: after)

variable {means : String → String → Prop} {cs out before plain rest : List Char}

/-! ## The first brace -/

/-- A text has no brace, or it has a first one. -/
theorem braceFree_or_exists_brace (cs : List Char) :
    BraceFree cs ∨
      ∃ plain d after, BraceFree plain ∧ isBrace d = true ∧ cs = plain ++ d :: after := by
  induction cs with
  | nil => exact .inl braceFree_nil
  | cons c cs ih =>
    cases hc : isBrace c with
    | true => exact .inr ⟨[], c, cs, braceFree_nil, hc, rfl⟩
    | false =>
      rcases ih with hcs | ⟨plain, d, after, hplain, hd, rfl⟩
      · exact .inl (braceFree_cons.mpr ⟨hc, hcs⟩)
      · exact .inr ⟨c :: plain, d, after, braceFree_cons.mpr ⟨hc, hplain⟩, hd, rfl⟩

theorem not_braceFree_append_cons {d : Char} (hd : isBrace d = true) :
    ¬ BraceFree (plain ++ d :: rest) := fun h => by
  rw [(braceFree_cons.mp (braceFree_append.mp h).2).1] at hd
  cases hd

/-- A brace of a text is the first one, or it stands behind the first one. -/
theorem first_or_behind {d d' : Char} {after : List Char} (hplain : BraceFree plain)
    (hd : isBrace d = true) (h : plain ++ d' :: after = before ++ d :: rest) :
    (before = plain ∧ d = d' ∧ rest = after) ∨
      ∃ middle, before = plain ++ d' :: middle ∧ after = middle ++ d :: rest := by
  rcases List.append_eq_append_iff.mp h with ⟨middle, rfl, hmiddle⟩ | ⟨middle, rfl, hmiddle⟩
  · cases middle with
    | nil =>
      obtain ⟨rfl, rfl⟩ := List.cons.inj hmiddle
      exact .inl ⟨List.append_nil _, rfl, rfl⟩
    | cons m middle =>
      obtain ⟨rfl, rfl⟩ := List.cons.inj hmiddle
      exact .inr ⟨middle, rfl, rfl⟩
  · cases middle with
    | nil =>
      obtain ⟨rfl, rfl⟩ := List.cons.inj hmiddle
      exact .inl ⟨(List.append_nil _).symm, rfl, rfl⟩
    | cons m middle =>
      obtain ⟨rfl, -⟩ := List.cons.inj hmiddle
      exact absurd hplain (not_braceFree_append_cons hd)

/-- There is only one way to cut a text at its first brace. -/
theorem append_brace_inj {plain' after : List Char} {d d' : Char} (hplain : BraceFree plain)
    (hplain' : BraceFree plain') (hd : isBrace d = true) (hd' : isBrace d' = true)
    (h : plain ++ d :: after = plain' ++ d' :: rest) : plain = plain' ∧ d = d' ∧ after = rest := by
  rcases first_or_behind hplain hd' h with ⟨rfl, rfl, rfl⟩ | ⟨middle, rfl, -⟩
  · exact ⟨rfl, rfl, rfl⟩
  · exact absurd hplain' (not_braceFree_append_cons hd)

/-! ## Rewriting group by group -/

theorem Rewritten.plain_append (hplain : BraceFree plain) (h : Rewritten means cs out) :
    Rewritten means (plain ++ cs) (plain ++ out) := by
  induction plain with
  | nil => exact h
  | cons c plain ih =>
    obtain ⟨hc, hrest⟩ := braceFree_cons.mp hplain
    exact .char hc (ih hrest)

theorem rewritten_written {lead : List Char} {groups : List BraceGroup} (hlead : BraceFree lead)
    (hgroups : ∀ g ∈ groups, g.Replaces means) :
    Rewritten means (written lead groups) (rewritten lead groups) := by
  refine Rewritten.plain_append hlead ?_
  induction groups with
  | nil => exact .nil
  | cons g groups ih =>
    obtain ⟨hg, hrest⟩ := List.forall_mem_cons.mp hgroups
    simp only [List.flatMap_cons, List.cons_append, List.append_assoc]
    have hgroup := Rewritten.group hg.filled hg.plain hg.known
      (Rewritten.plain_append hg.after_plain (ih hrest))
    simpa only [List.cons_append, List.append_assoc] using hgroup

/-- **A text is rewritten exactly if it is made of groups**, and then it is rewritten group by
group. -/
theorem rewritten_iff_written :
    Rewritten means cs out ↔ ∃ lead groups, BraceFree lead ∧
      (∀ g ∈ groups, g.Replaces means) ∧ cs = written lead groups ∧
      out = rewritten lead groups := by
  constructor
  · intro h
    induction h with
    | nil => exact ⟨[], [], braceFree_nil, fun _ h => (nomatch h), rfl, rfl⟩
    | @char c _ _ plain _ ih =>
      obtain ⟨lead, groups, hlead, hgroups, rfl, rfl⟩ := ih
      exact ⟨c :: lead, groups, braceFree_cons.mpr ⟨plain, hlead⟩, hgroups, rfl, rfl⟩
    | @group reference _ _ name filled plain known _ ih =>
      -- What was the lead of the rest becomes the plain text behind the group.
      obtain ⟨lead, groups, hlead, hgroups, rfl, rfl⟩ := ih
      refine ⟨[], ⟨reference, name, lead⟩ :: groups, braceFree_nil,
        List.forall_mem_cons.mpr ⟨⟨filled, plain, known, hlead⟩, hgroups⟩, ?_, ?_⟩
      · simp only [written, List.flatMap_cons, List.nil_append, List.cons_append,
          List.append_assoc]
      · simp only [rewritten, List.flatMap_cons, List.nil_append, List.append_assoc]
  · rintro ⟨lead, groups, hlead, hgroups, rfl, rfl⟩
    exact rewritten_written hlead hgroups

/-! ## Braces of a text that is rewritten -/

/-- An opening brace starts a group, wherever it stands. -/
theorem Rewritten.opens (h : Rewritten means cs out) (hcs : cs = before ++ '\x7b' :: rest) :
    ∃ reference after name, reference ≠ [] ∧ BraceFree reference ∧
      means (String.ofList reference) name ∧ rest = reference ++ '\x7d' :: after := by
  induction h generalizing before with
  | nil => exact absurd hcs.symm (List.append_ne_nil_of_right_ne_nil before (List.cons_ne_nil _ _))
  | char plain _ ih =>
    cases before with
    | nil => cases (List.cons.inj hcs).1; cases plain
    | cons b before => exact ih (List.cons.inj hcs).2
  | @group reference after _ name filled plain known _ ih =>
    cases before with
    | nil => exact ⟨reference, after, name, filled, plain, known, (List.cons.inj hcs).2.symm⟩
    | cons b before =>
      rcases first_or_behind plain rfl (List.cons.inj hcs).2 with ⟨-, hne, -⟩ | ⟨middle, -, hmiddle⟩
      · cases hne
      · exact ih hmiddle

/-- A closing brace ends a group, wherever it stands, and what follows is rewritten by itself. -/
theorem Rewritten.closes (h : Rewritten means cs out) (hcs : cs = before ++ '\x7d' :: rest) :
    (∃ front reference, before = front ++ '\x7b' :: reference) ∧
      ∃ out', Rewritten means rest out' := by
  induction h generalizing before with
  | nil => exact absurd hcs.symm (List.append_ne_nil_of_right_ne_nil before (List.cons_ne_nil _ _))
  | char plain _ ih =>
    cases before with
    | nil => cases (List.cons.inj hcs).1; cases plain
    | cons b before =>
      obtain ⟨⟨front, reference, rfl⟩, hrest⟩ := ih (List.cons.inj hcs).2
      exact ⟨⟨b :: front, reference, rfl⟩, hrest⟩
  | @group reference after out _ filled plain known hafter ih =>
    cases before with
    | nil => cases (List.cons.inj hcs).1
    | cons b before =>
      obtain ⟨rfl, htail⟩ := List.cons.inj hcs
      rcases first_or_behind plain rfl htail with ⟨rfl, -, rfl⟩ | ⟨middle, rfl, hmiddle⟩
      · exact ⟨⟨[], before, rfl⟩, out, hafter⟩
      · obtain ⟨⟨front, reference', rfl⟩, hrest⟩ := ih hmiddle
        exact ⟨⟨'\x7b' :: reference ++ '\x7d' :: front, reference', by
          simp only [List.cons_append, List.append_assoc]⟩, hrest⟩

/-! ## Flaws -/

/-- A flawed text is not rewritten. -/
theorem Flawed.not_rewritten (hflawed : Flawed means cs) : ¬ Rewritten means cs out := by
  intro h
  cases hflawed with
  | unclosed before hplain =>
    obtain ⟨reference, after, -, -, -, -, rfl⟩ := h.opens rfl
    exact not_braceFree_append_cons rfl hplain
  | nested before after hplain =>
    rw [List.append_assoc] at h
    obtain ⟨reference, after', -, -, hreference, -, hrest⟩ := h.opens rfl
    cases (append_brace_inj hplain hreference rfl rfl hrest).2.1
  | unopened after hplain =>
    obtain ⟨⟨front, reference, rfl⟩, -⟩ := h.closes rfl
    exact not_braceFree_append_cons rfl hplain
  | closedTwice before after hplain =>
    -- What follows the first of the two is rewritten by itself, and nothing there opens the second.
    rw [List.append_assoc] at h
    obtain ⟨-, out', hrest⟩ := h.closes rfl
    obtain ⟨⟨front, reference, rfl⟩, -⟩ := hrest.closes rfl
    exact not_braceFree_append_cons rfl hplain
  | empty before after =>
    obtain ⟨reference, after', -, hfilled, hreference, -, hrest⟩ := h.opens rfl
    have hempty : [] ++ '\x7d' :: after = reference ++ '\x7d' :: after' := hrest
    exact hfilled (append_brace_inj braceFree_nil hreference rfl rfl hempty).1.symm
  | unresolved before after hreference unknown =>
    rw [List.append_assoc] at h
    obtain ⟨reference', after', name, -, hreference', hknown, hrest⟩ := h.opens rfl
    obtain ⟨rfl, -⟩ := append_brace_inj hreference hreference' rfl rfl hrest
    exact unknown name hknown

/-- What is put in front of a flaw takes it away only if it opens a brace. -/
theorem Flawed.append_closed (front : List Char) (h : Flawed means cs) :
    Flawed means (front ++ '\x7d' :: cs) := by
  have hassoc (before plain : List Char) :
      front ++ '\x7d' :: (before ++ plain) = (front ++ '\x7d' :: before) ++ plain := by
    rw [List.append_assoc, List.cons_append]
  cases h with
  | unclosed before hplain => rw [hassoc]; exact .unclosed _ hplain
  | nested before after hplain => rw [hassoc, hassoc]; exact .nested _ after hplain
  | unopened after hplain => rw [hassoc]; exact .closedTwice front after hplain
  | closedTwice before after hplain => rw [hassoc, hassoc]; exact .closedTwice _ after hplain
  | empty before after => rw [hassoc]; exact .empty _ after
  | unresolved before after hreference unknown =>
    rw [hassoc, hassoc]
    exact .unresolved _ after hreference unknown

/-- A text that is not rewritten has a flaw. -/
theorem rewritten_or_flawed (cs : List Char) :
    (∃ out, Rewritten means cs out) ∨ Flawed means cs := by
  induction hlength : cs.length using Nat.strongRecOn generalizing cs with | ind n ih => ?_
  rcases braceFree_or_exists_brace cs with hcs | ⟨lead, d, rest, hlead, hd, rfl⟩
  · have hcopied : Rewritten means (cs ++ []) (cs ++ []) := .plain_append hcs .nil
    rw [List.append_nil] at hcopied
    exact .inl ⟨cs, hcopied⟩
  rcases (isBrace_eq_true_iff.mp hd).symm with rfl | rfl
  · exact .inr (.unopened rest hlead)
  rcases braceFree_or_exists_brace rest with hrest | ⟨reference, d, after, hreference, hd, rfl⟩
  · exact .inr (.unclosed lead hrest)
  have hassoc (c : Char) : lead ++ '\x7b' :: (reference ++ c :: after) =
      lead ++ '\x7b' :: reference ++ c :: after := by rw [List.append_assoc, List.cons_append]
  rw [hassoc]
  rcases isBrace_eq_true_iff.mp hd with rfl | rfl
  · exact .inr (.nested lead after hreference)
  by_cases hunknown : ∀ name, ¬ means (String.ofList reference) name
  · exact .inr (.unresolved lead after hreference hunknown)
  obtain ⟨name, hname⟩ := Classical.not_forall_not.mp hunknown
  by_cases hfilled : reference = []
  · subst hfilled
    rw [← hassoc]
    exact .inr (.empty lead after)
  -- The first group is in order, so it is up to the text behind it.
  have hshorter : after.length < n := by
    simp only [List.length_append, List.length_cons] at hlength
    omega
  rcases ih after.length hshorter after rfl with ⟨out, hafter⟩ | hflawed
  · rw [← hassoc]
    exact .inl ⟨_, Rewritten.plain_append hlead (.group hfilled hreference hname hafter)⟩
  · exact .inr (hflawed.append_closed _)

/-- **A text is rewritten unless it has a flaw.** -/
theorem flawed_iff : Flawed means cs ↔ ∀ out, ¬ Rewritten means cs out := by
  refine ⟨fun h _ => h.not_rewritten, fun h => ?_⟩
  rcases rewritten_or_flawed cs with ⟨out, hout⟩ | hflawed
  · exact absurd hout (h out)
  · exact hflawed

/-! ## The text of a component -/

/-- A reference means a name, and the name may stand in a text. -/
def Insertable (meaning : String → Option String) (reference name : String) : Prop :=
  meaning reference = some name ∧ BraceFree name.toList

/-- **A component has a text exactly if its text is made of groups of references that mean names
without braces**; each of these groups becomes its name, and the rest stays. It has none exactly if
there is a flaw anywhere in its text. -/
theorem componentText?_groups (meaning : String → Option String) (s : String) :
    (∀ t, componentText? meaning (.text s) = some t ↔
      ∃ lead groups, BraceFree lead ∧ (∀ g ∈ groups, g.Replaces (Insertable meaning)) ∧
        s.toList = written lead groups ∧ t.toList = rewritten lead groups) ∧
    (componentText? meaning (.text s) = none ↔ Flawed (Insertable meaning) s.toList) := by
  refine ⟨fun t => componentText?_eq_some_iff.trans rewritten_iff_written, ?_⟩
  rw [flawed_iff, Option.eq_none_iff_forall_ne_some]
  constructor
  · intro h out hout
    have hsome : componentText? meaning (.text s) = some (String.ofList out) :=
      componentText?_eq_some_iff.mpr (by rwa [String.toList_ofList])
    exact h _ hsome
  · intro h t ht
    exact h t.toList (componentText?_eq_some_iff.mp ht)

/-- A group inside another one has a meaning of its own here, and still the text is left out. -/
example : componentText? (fun _ => some "--x-a") (.text "\x7b\x7ba.b\x7d\x7d") = none := by
  decide +kernel

end Downline.Token
