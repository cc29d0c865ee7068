import Downline.Proofs.Signup.Run

/-!
# What a completed signup hands out

Each gate looks at what the applicant has given when its step is left, and at nothing else later.
Since values and agreements may be edited at any step, a submission may be invalid as a whole
although every gate was passed. It is valid exactly if what was edited after the gates is valid
again (`complete_run_iff`, `granted_run_iff`).
-/

namespace Downline.Signup

/-- A submission that would pass the gates of all steps that ask for something. -/
structure Submission.Valid (s : Submission) : Prop where
  values : s.values.Complete
  agreements : s.agreements.Granted

namespace Flow

/-- A signup completes at the last step and after the check for humans, with what was given. -/
theorem completed_iff {f : Flow} {s : Submission} :
    f.next.1 = .ok (.completed s) ↔
      f.step = .verification ∧ f.turnstile = .success ∧ s = ⟨f.values, f.agreements⟩ := by
  have hgate : f.step = .verification → (f.canProceed = true ↔ f.turnstile = .success) := by
    intro hstep
    rw [canProceed, hstep, beq_iff_eq]
  constructor
  · intro h
    rcases f.next_cases with ⟨-, hnext⟩ | ⟨_, -, -, hnext⟩ | ⟨hopen, hstep, hnext⟩
    · rw [hnext] at h
      cases h
    · rw [hnext] at h
      cases h
    · rw [hnext] at h
      cases h
      exact ⟨hstep, (hgate hstep).mp hopen, rfl⟩
  · rintro ⟨hstep, hsuccess, rfl⟩
    rcases f.next_cases with ⟨hclosed, -⟩ | ⟨_, -, hmore, -⟩ | ⟨-, -, hnext⟩
    · cases hclosed.symm.trans ((hgate hstep).mpr hsuccess)
    · rw [hstep] at hmore
      cases hmore
    · rw [hnext]

theorem complete_run_iff {f : Flow} (hf : f.values.Complete) (es : List Event) :
    (f.run es).values.Complete ↔ ∀ v, lastValues? es = some v → v.Complete := by
  rw [values_run]
  cases lastValues? es with
  | none => exact ⟨fun _ => nofun, fun _ => hf⟩
  | some v => exact ⟨fun h _ heq => Option.some.inj heq ▸ h, fun h => h v rfl⟩

/-- An accepted term stays accepted exactly if the answer given last since then is not no. -/
theorem answer?_run_iff {f : Flow} {t : Term} (hf : f.agreements.answer? t = some true)
    (es : List Event) :
    (f.run es).agreements.answer? t = some true ↔ lastAnswer? t es ≠ some false := by
  rw [answer?_run, hf]
  cases lastAnswer? t es with
  | none => simp
  | some accepted => cases accepted <;> simp

theorem granted_run_iff {f : Flow} (hf : f.agreements.Granted) (es : List Event) :
    (f.run es).agreements.Granted ↔
      lastAnswer? .service es ≠ some false ∧ lastAnswer? .privacy es ≠ some false := by
  rw [← answer?_run_iff hf.service, ← answer?_run_iff hf.privacy]
  exact ⟨fun h => ⟨h.service, h.privacy⟩, fun ⟨hservice, hprivacy⟩ => ⟨hservice, hprivacy⟩⟩

/-- **A completed signup was let through both gates**, and what it hands out is valid as a whole
exactly if the values given last after the first gate are complete and neither required term was
last answered with no after the second. -/
theorem completed_valid_iff {es : List Event} {s : Submission}
    (h : ((start .details).run es).next.1 = .ok (.completed s)) :
    ∃ es₁ es₂ es₃, es = es₁ ++ .next :: (es₂ ++ .next :: es₃) ∧
      ((start .details).run es₁).step = .details ∧
      ((start .details).run es₁).values.Complete ∧
      ((start .details).run (es₁ ++ .next :: es₂)).step = .agreements ∧
      ((start .details).run (es₁ ++ .next :: es₂)).agreements.Granted ∧
      (s.Valid ↔
        (∀ v, lastValues? (es₂ ++ .next :: es₃) = some v → v.Complete) ∧
          lastAnswer? .service es₃ ≠ some false ∧ lastAnswer? .privacy es₃ ≠ some false) := by
  obtain ⟨hstep, -, rfl⟩ := completed_iff.mp h
  obtain ⟨es₁, es₂, es₃, rfl, hdetails, hcomplete, hagreements, hgranted⟩ := exists_left_both hstep
  refine ⟨es₁, es₂, es₃, rfl, hdetails, hcomplete, hagreements, hgranted, ?_⟩
  have hvalues := complete_run_iff hcomplete (.next :: (es₂ ++ .next :: es₃))
  have hterms := granted_run_iff hgranted (.next :: es₃)
  rw [← run_append] at hvalues hterms
  rw [List.append_assoc, List.cons_append] at hterms
  exact ⟨fun hvalid => ⟨hvalues.mp hvalid.values, hterms.mp hvalid.agreements⟩,
    fun ⟨hv, ht⟩ => ⟨hvalues.mpr hv, hterms.mpr ht⟩⟩

/-- A name, an address and a password that is long enough. -/
def filledIn : Values := ⟨"Kim Minji", "kim@example.com", "password", none⟩

/-- A run that passes both gates and takes back at the last step what it passed them with. -/
def takenBack : List Event :=
  [.edit filledIn, .next, .toggleAll true, .next, .edit .blank, .agree .privacy false,
    .verificationSucceeded]

def emptyHanded : Submission := ⟨.blank, ⟨some true, some false, some true⟩⟩

theorem completed_valid_iff_takenBack :
    ((start .details).run takenBack).next.1 = .ok (.completed emptyHanded) ∧
      ∃ es₁ es₂ es₃, takenBack = es₁ ++ .next :: (es₂ ++ .next :: es₃) ∧
        ((start .details).run es₁).step = .details ∧
        ((start .details).run es₁).values.Complete ∧
        ((start .details).run (es₁ ++ .next :: es₂)).step = .agreements ∧
        ((start .details).run (es₁ ++ .next :: es₂)).agreements.Granted ∧
        (emptyHanded.Valid ↔
          (∀ v, lastValues? (es₂ ++ .next :: es₃) = some v → v.Complete) ∧
            lastAnswer? .service es₃ ≠ some false ∧ lastAnswer? .privacy es₃ ≠ some false) :=
  ⟨by decide, completed_valid_iff (by decide)⟩

/-- So what is handed out need not be valid as a whole. -/
theorem not_valid_of_completed :
    ¬ ∀ (es : List Event) (s : Submission),
      ((start .details).run es).next.1 = .ok (.completed s) → s.Valid := by
  intro hall
  have hcompleted : ((start .details).run takenBack).next.1 = .ok (.completed emptyHanded) := by
    decide
  exact (hall takenBack emptyHanded hcompleted).values.name rfl

end Flow

end Downline.Signup
