import Downline.Proofs.Signup.Completion

/-!
# The way through a signup

What can be said of a signup wherever a run has led it (`passage`): how it got to the last step,
that a call moves it by one step at most, and what `next` answers. The gates that were passed are
not part of a flow; that they were passed is known from its step and the run behind it.
-/

namespace Downline.Signup

/-- Two steps that are the same or follow one another, in either order. -/
def Step.Near (s t : Step) : Prop := s.number ≤ t.number + 1 ∧ t.number ≤ s.number + 1

namespace Step

theorem near_refl (s : Step) : s.Near s := ⟨Nat.le_succ _, Nat.le_succ _⟩

theorem near_of_next? {s t : Step} (h : s.next? = some t) : s.Near t := by
  cases s <;> cases h <;> exact ⟨by decide, by decide⟩

theorem near_previous (s : Step) : s.Near s.previous := by
  cases s <;> exact ⟨by decide, by decide⟩

end Step

namespace Flow

/-- A call moves a signup by one step at most. -/
theorem near_apply (f : Flow) (e : Event) : f.step.Near (f.apply e).step := by
  rcases f.step_apply_cases e with hsame | ⟨-, -, hnext⟩ | ⟨-, hback⟩
  · exact hsame ▸ f.step.near_refl
  · exact Step.near_of_next? hnext
  · exact hback ▸ f.step.near_previous

theorem moves_of_step_ne {f : Flow} {e : Event} (h : (f.apply e).step ≠ f.step) :
    e = .next ∨ e = .previous := by
  rcases f.step_apply_cases e with hsame | ⟨hnext, -⟩ | ⟨hback, -⟩
  · exact absurd hsame h
  · exact .inl hnext
  · exact .inr hback

/-- A refusal names the current step. -/
theorem next_eq_of_error {f : Flow} {fault : Fault} (h : f.next.1 = .error fault) :
    f.next = (.error (.stepNotReady f.step), f) := by
  rcases f.next_cases with ⟨-, hnext⟩ | ⟨_, -, -, hnext⟩ | ⟨-, -, hnext⟩
  · exact hnext
  · rw [hnext] at h
    cases h
  · rw [hnext] at h
    cases h

theorem next_eq_of_completed {f : Flow} {s : Submission} (h : f.next.1 = .ok (.completed s)) :
    f.next = (.ok (.completed ⟨f.values, f.agreements⟩), f) := by
  rcases f.next_cases with ⟨-, hnext⟩ | ⟨_, -, -, hnext⟩ | ⟨-, -, hnext⟩
  · rw [hnext] at h
    cases h
  · rw [hnext] at h
    cases h
  · exact hnext

/-- **Wherever a run has led a signup**: at the last step it has passed both gates, the second after
the first; each call moves it by one step at most and only `next` and `previous` move it at all; a
refusal names the current step; and it completes only at the last step after the check for humans,
with the values and answers that were given last. Neither refusal nor completion changes it. -/
theorem passage (es : List Event) :
    let f := (start .details).run es
    (f.step = .verification →
      ∃ es₁ es₂ es₃, es = es₁ ++ .next :: (es₂ ++ .next :: es₃) ∧
        ((start .details).run es₁).step = .details ∧
        ((start .details).run es₁).values.Complete ∧
        ((start .details).run (es₁ ++ .next :: es₂)).step = .agreements ∧
        ((start .details).run (es₁ ++ .next :: es₂)).agreements.Granted) ∧
    (∀ e, f.step.Near (f.apply e).step ∧
      ((f.apply e).step ≠ f.step → e = .next ∨ e = .previous)) ∧
    (∀ fault, f.next.1 = .error fault → fault = .stepNotReady f.step ∧ f.next.2 = f) ∧
    ∀ s, f.next.1 = .ok (.completed s) →
      f.step = .verification ∧ f.turnstile = .success ∧ f.next.2 = f ∧
        s.values = f.values ∧ f.values = (lastValues? es).getD .blank ∧
        ∀ t, s.agreements.answer? t = lastAnswer? t es := by
  intro f
  refine ⟨exists_left_both, fun e => ⟨f.near_apply e, moves_of_step_ne⟩, ?_, ?_⟩
  · intro fault h
    have hnext := next_eq_of_error h
    rw [hnext] at h
    exact ⟨(Except.error.inj h).symm, by rw [hnext]⟩
  · intro s h
    obtain ⟨hstep, hsuccess, rfl⟩ := completed_iff.mp h
    refine ⟨hstep, hsuccess, by rw [next_eq_of_completed h], rfl, values_run _ es, fun t => ?_⟩
    have hanswer := answer?_run (start .details) es t
    have hfresh : (start .details).agreements.answer? t = none := by cases t <;> rfl
    rwa [hfresh, Option.or_none] at hanswer

/-- A run may come to the last step and complete there; the term that was never answered is not
handed out. -/
example :
    let values : Values := ⟨"Kim Minji", "kim@example.com", "password", none⟩
    let f := (start .details).run
      [.edit values, .next, .agree .service true, .next, .agree .privacy true, .next,
        .verificationSucceeded]
    f.step = .verification ∧
      f.next.1 = .ok (.completed ⟨values, ⟨some true, some true, none⟩⟩) := by decide

end Flow

end Downline.Signup
