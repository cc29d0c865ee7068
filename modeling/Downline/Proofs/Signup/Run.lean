import Downline.Signup.Flow
import Mathlib.Data.List.Induction

/-!
# Runs of a signup

A run is what an applicant does to a signup, one event after the other. Values and answers are
those of the last event that gave them (`values_run`, `answer?_run`), whatever step it came at.

The step moves by `next` and `previous` alone (`step_apply_cases`). So a signup that is at a later
step has been let through the gates of the earlier ones, each by a `next` of the run
(`exists_left_details`, `exists_left_both`).
-/

namespace Downline.Signup

namespace Step

theorem next?_eq_verification {s : Step} : s.next? = some .verification ↔ s = .agreements := by
  cases s <;> decide

theorem previous_ne_verification (s : Step) : s.previous ≠ .verification := by
  cases s <;> decide

end Step

/-! ## What the gates ask for -/

/-- Values that the first gate lets through. -/
structure Values.Complete (v : Values) : Prop where
  name : v.name ≠ ""
  email : v.email ≠ ""
  password : minPasswordLength ≤ v.password.length

/-- Both required terms are accepted. -/
structure Agreements.Granted (a : Agreements) : Prop where
  service : a.answer? .service = some true
  privacy : a.answer? .privacy = some true

namespace Flow

theorem allRequiredChecked_iff (f : Flow) : f.allRequiredChecked = true ↔ f.agreements.Granted := by
  have hrequired : Term.all.filter Term.isRequired = [.service, .privacy] := rfl
  have haccepts : ∀ t, f.agreements.accepts t = true ↔ f.agreements.answer? t = some true := by
    intro t
    rw [Agreements.accepts]
    cases f.agreements.answer? t <;> simp
  rw [allRequiredChecked, hrequired, List.all_cons, List.all_cons, List.all_nil, Bool.and_true,
    Bool.and_eq_true, haccepts, haccepts]
  exact ⟨fun ⟨hservice, hprivacy⟩ => ⟨hservice, hprivacy⟩, fun h => ⟨h.service, h.privacy⟩⟩

theorem canProceed_details {f : Flow} (hstep : f.step = .details) :
    f.canProceed = true ↔ f.values.Complete := by
  simp only [canProceed, hstep, Bool.and_eq_true, bne_iff_ne, decide_eq_true_eq]
  exact ⟨fun ⟨⟨hname, hemail⟩, hpassword⟩ => ⟨hname, hemail, hpassword⟩,
    fun h => ⟨⟨h.name, h.email⟩, h.password⟩⟩

theorem canProceed_agreements {f : Flow} (hstep : f.step = .agreements) :
    f.canProceed = true ↔ f.agreements.Granted := by
  rw [← allRequiredChecked_iff, canProceed, hstep]

/-- What `next` does: it refuses, goes on by one step, or completes at the last one. -/
theorem next_cases (f : Flow) :
    (f.canProceed = false ∧ f.next = (.error (.stepNotReady f.step), f)) ∨
      (∃ step, f.canProceed = true ∧ f.step.next? = some step ∧
        f.next = (.ok (.advanced step), { f with step })) ∨
      (f.canProceed = true ∧ f.step = .verification ∧
        f.next = (.ok (.completed ⟨f.values, f.agreements⟩), f)) := by
  cases hgate : f.canProceed with
  | false => exact .inl ⟨rfl, by rw [next, hgate]; rfl⟩
  | true =>
    refine .inr ?_
    cases hstep : f.step with
    | details => exact .inl ⟨_, rfl, rfl, by simp only [next, hgate, hstep, if_true]; rfl⟩
    | agreements => exact .inl ⟨_, rfl, rfl, by simp only [next, hgate, hstep, if_true]; rfl⟩
    | verification => exact .inr ⟨rfl, rfl, by simp only [next, hgate, hstep, if_true]; rfl⟩

end Flow

/-! ## Events -/

/-- Something that happens to a signup. -/
inductive Event where
  /-- The values are edited; the new ones are given as a whole. -/
  | edit (values : Values)
  | agree (term : Term) (accepted : Bool)
  | toggleAll (accepted : Bool)
  | startVerification
  | verificationSucceeded
  | verificationFailed
  | retryVerification
  | next
  | previous
  deriving DecidableEq, Repr

namespace Event

def values? : Event → Option Values
  | edit values => some values
  | _ => none

def answer? (t : Term) : Event → Option Bool
  | agree u accepted => if u = t then some accepted else none
  | toggleAll accepted => some accepted
  | _ => none

end Event

/-- The values that were given last. -/
def lastValues? (es : List Event) : Option Values := (es.filterMap Event.values?).getLast?

/-- The answer that was given last to a term. -/
def lastAnswer? (t : Term) (es : List Event) : Option Bool :=
  (es.filterMap (Event.answer? t)).getLast?

namespace Flow

def apply (f : Flow) : Event → Flow
  | .edit values => { f with values }
  | .agree t accepted => f.setAgreement t accepted
  | .toggleAll accepted => f.toggleAll accepted
  | .startVerification => f.startVerification
  | .verificationSucceeded => f.verificationSucceeded
  | .verificationFailed => f.verificationFailed
  | .retryVerification => f.retryVerification
  | .next => f.next.2
  | .previous => f.previous

def run (f : Flow) (es : List Event) : Flow := es.foldl apply f

theorem run_append (f : Flow) (es later : List Event) :
    f.run (es ++ later) = (f.run es).run later :=
  List.foldl_append

theorem run_concat (f : Flow) (es : List Event) (e : Event) :
    f.run (es ++ [e]) = (f.run es).apply e :=
  f.run_append es [e]

/-! ## Values and answers -/

theorem next_eq (f : Flow) : ∃ step, f.next.2 = { f with step } := by
  rcases f.next_cases with ⟨-, h⟩ | ⟨step, -, -, h⟩ | ⟨-, -, h⟩
  · exact ⟨f.step, by rw [h]⟩
  · exact ⟨step, by rw [h]⟩
  · exact ⟨f.step, by rw [h]⟩

theorem startVerification_eq (f : Flow) :
    ∃ turnstile, f.startVerification = { f with turnstile } := by
  rw [startVerification]
  split
  · exact ⟨f.turnstile, rfl⟩
  · exact ⟨.loading, rfl⟩

theorem values_apply (f : Flow) (e : Event) :
    (f.apply e).values = e.values?.getD f.values := by
  cases e with
  | next =>
    obtain ⟨step, h⟩ := f.next_eq
    rw [apply, h]
    rfl
  | startVerification =>
    obtain ⟨turnstile, h⟩ := f.startVerification_eq
    rw [apply, h]
    rfl
  | _ => rfl

theorem answer?_apply (f : Flow) (e : Event) (t : Term) :
    (f.apply e).agreements.answer? t = (e.answer? t).or (f.agreements.answer? t) := by
  cases e with
  | next =>
    obtain ⟨step, h⟩ := f.next_eq
    rw [apply, h]
    rfl
  | startVerification =>
    obtain ⟨turnstile, h⟩ := f.startVerification_eq
    rw [apply, h]
    rfl
  | agree u accepted =>
    rw [apply, setAgreement, Agreements.answer?_set, Event.answer?]
    split <;> rfl
  | toggleAll accepted => cases t <;> rfl
  | _ => rfl

theorem values_run (f : Flow) (es : List Event) :
    (f.run es).values = (lastValues? es).getD f.values := by
  induction es using List.reverseRecOn with
  | nil => rfl
  | append_singleton es e ih =>
    rw [run_concat, values_apply, ih, lastValues?, lastValues?, List.filterMap_append,
      List.getLast?_append]
    cases h : e.values? <;> simp [h]

/-- A term's answer is the one given last. -/
theorem answer?_run (f : Flow) (es : List Event) (t : Term) :
    (f.run es).agreements.answer? t = (lastAnswer? t es).or (f.agreements.answer? t) := by
  induction es using List.reverseRecOn with
  | nil => rfl
  | append_singleton es e ih =>
    rw [run_concat, answer?_apply, ih, lastAnswer?, lastAnswer?, List.filterMap_append,
      List.getLast?_append]
    cases h : e.answer? t <;> simp [h]

/-! ## Steps -/

/-- Only `next` and `previous` move the step, and `next` only through an open gate. -/
theorem step_apply_cases (f : Flow) (e : Event) :
    (f.apply e).step = f.step ∨
      (e = .next ∧ f.canProceed = true ∧ f.step.next? = some (f.apply e).step) ∨
      (e = .previous ∧ (f.apply e).step = f.step.previous) := by
  cases e with
  | next =>
    rcases f.next_cases with ⟨-, h⟩ | ⟨step, hgate, hnext, h⟩ | ⟨-, -, h⟩
    · exact .inl (by rw [apply, h])
    · exact .inr (.inl ⟨rfl, hgate, by rw [apply, h]; exact hnext⟩)
    · exact .inl (by rw [apply, h])
  | previous => exact .inr (.inr ⟨rfl, rfl⟩)
  | startVerification =>
    obtain ⟨turnstile, h⟩ := f.startVerification_eq
    exact .inl (by rw [apply, h])
  | _ => exact .inl rfl

theorem exists_left_details {es : List Event}
    (hstep : ((start .details).run es).step ≠ .details) :
    ∃ es₁ es₂, es = es₁ ++ .next :: es₂ ∧ ((start .details).run es₁).step = .details ∧
      ((start .details).run es₁).values.Complete := by
  induction es using List.reverseRecOn with
  | nil => exact absurd rfl hstep
  | append_singleton es e ih =>
    by_cases hwas : ((start .details).run es).step = .details
    · rw [run_concat] at hstep
      rcases ((start .details).run es).step_apply_cases e with hsame | ⟨rfl, hgate, -⟩ | ⟨-, hback⟩
      · exact absurd (hsame.trans hwas) hstep
      · exact ⟨es, [], rfl, hwas, (canProceed_details hwas).mp hgate⟩
      · rw [hwas] at hback
        exact absurd hback hstep
    · obtain ⟨es₁, es₂, rfl, hleft⟩ := ih hwas
      exact ⟨es₁, es₂ ++ [e], by rw [List.append_assoc, List.cons_append], hleft⟩

/-- A signup at the last step was let through both gates before it, the second after the first. -/
theorem exists_left_both {es : List Event}
    (hstep : ((start .details).run es).step = .verification) :
    ∃ es₁ es₂ es₃, es = es₁ ++ .next :: (es₂ ++ .next :: es₃) ∧
      ((start .details).run es₁).step = .details ∧
      ((start .details).run es₁).values.Complete ∧
      ((start .details).run (es₁ ++ .next :: es₂)).step = .agreements ∧
      ((start .details).run (es₁ ++ .next :: es₂)).agreements.Granted := by
  induction es using List.reverseRecOn with
  | nil => cases hstep
  | append_singleton es e ih =>
    -- either the step was reached before the last event, or that event is a `next` at the second
    by_cases hwas : ((start .details).run es).step = .verification
    · obtain ⟨es₁, es₂, es₃, rfl, hleft⟩ := ih hwas
      exact ⟨es₁, es₂, es₃ ++ [e], by simp only [List.append_assoc, List.cons_append], hleft⟩
    · rw [run_concat] at hstep
      rcases ((start .details).run es).step_apply_cases e with
        hsame | ⟨rfl, hgate, hnext⟩ | ⟨-, hback⟩
      · exact absurd (hsame.symm.trans hstep) hwas
      · have hat : ((start .details).run es).step = .agreements := by
          rw [hstep] at hnext
          exact Step.next?_eq_verification.mp hnext
        have hpast : ((start .details).run es).step ≠ .details := by
          rw [hat]
          exact nofun
        obtain ⟨es₁, es₂, rfl, hdetails, hcomplete⟩ := exists_left_details hpast
        refine ⟨es₁, es₂, [], ?_, hdetails, hcomplete, hat, (canProceed_agreements hat).mp hgate⟩
        rw [List.append_assoc, List.cons_append]
      · exact absurd (hback.symm.trans hstep) (Step.previous_ne_verification _)

end Flow

end Downline.Signup
