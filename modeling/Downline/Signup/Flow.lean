import Downline.Signup.Step
import Downline.Fault

/-!
# The signup as a machine

A `Flow` holds what an applicant has given so far and the step it is at. Values and agreements may
be edited at any step, and the applicant may go back at any time. `Flow.next` lets the flow leave a
step only when that step's gate is open:

* details: a name, an email address and a password of at least `minPasswordLength` characters;
* agreements: all required terms accepted;
* verification: the check for humans has succeeded.

Leaving the last step hands out a `Submission` and stays where it is.
-/

namespace Downline.Signup

/-- Least number of characters of a password. -/
def minPasswordLength : Nat := 8

/-- A term that the applicant is asked to accept. -/
inductive Term where
  | service
  | privacy
  | marketing
  deriving DecidableEq, Repr

namespace Term

/-- All terms in the order in which they are shown. -/
def all : List Term := [service, privacy, marketing]

def name : Term → String
  | service => "Service"
  | privacy => "Privacy"
  | marketing => "Marketing"

def isRequired : Term → Bool
  | service => true
  | privacy => true
  | marketing => false

end Term

/-- State of the check for humans. -/
inductive Turnstile where
  | idle
  | loading
  | success
  | error
  deriving DecidableEq, Repr

namespace Turnstile

def name : Turnstile → String
  | idle => "Idle"
  | loading => "Loading"
  | success => "Success"
  | error => "Error"

/-- The line shown below the check. -/
def message : Turnstile → String
  | idle => "보안 확인을 완료해주세요."
  | loading => "보안 검증 중입니다…"
  | success => "보안 검증이 완료되었습니다."
  | error => "보안 검증에 실패했습니다. 다시 시도해주세요."

end Turnstile

/-- What the applicant types in. -/
structure Values where
  name : String
  email : String
  password : String
  referralCode : Option String
  deriving DecidableEq, Repr

def Values.blank : Values := ⟨"", "", "", none⟩

/-- The last answer given for each term, absent for a term never answered. -/
structure Agreements where
  service : Option Bool
  privacy : Option Bool
  marketing : Option Bool
  deriving DecidableEq, Repr

namespace Agreements

def none : Agreements := ⟨Option.none, Option.none, Option.none⟩

def answer? (a : Agreements) : Term → Option Bool
  | .service => a.service
  | .privacy => a.privacy
  | .marketing => a.marketing

/-- Records the answer for one term. -/
def set (a : Agreements) (t : Term) (accepted : Bool) : Agreements :=
  match t with
  | .service => { a with service := some accepted }
  | .privacy => { a with privacy := some accepted }
  | .marketing => { a with marketing := some accepted }

theorem answer?_set (a : Agreements) (t u : Term) (accepted : Bool) :
    (a.set t accepted).answer? u = if t = u then some accepted else a.answer? u := by
  cases t <;> cases u <;> rfl

/-- Records the same answer for every term. -/
def setAll (a : Agreements) (accepted : Bool) : Agreements :=
  Term.all.foldl (fun a t => a.set t accepted) a

/-- True of a term whose last answer is yes. -/
def accepts (a : Agreements) (t : Term) : Bool := (a.answer? t).getD false

/-- The answers given, in the order of the terms. -/
def toList (a : Agreements) : List (Term × Bool) :=
  Term.all.filterMap fun t => (a.answer? t).map (t, ·)

end Agreements

/-- What a completed signup hands out. -/
structure Submission where
  values : Values
  agreements : Agreements
  deriving DecidableEq, Repr

/-- What leaving a step leads to. -/
inductive Outcome where
  | advanced (step : Step)
  | completed (submission : Submission)
  deriving DecidableEq, Repr

/-- A signup under way. -/
structure Flow where
  step : Step
  values : Values
  agreements : Agreements
  turnstile : Turnstile
  deriving DecidableEq, Repr

namespace Flow

/-- A signup that starts at the given step with nothing filled in. -/
def start (step : Step) : Flow := ⟨step, .blank, .none, .idle⟩

def setAgreement (f : Flow) (t : Term) (accepted : Bool) : Flow :=
  { f with agreements := f.agreements.set t accepted }

def toggleAll (f : Flow) (accepted : Bool) : Flow :=
  { f with agreements := f.agreements.setAll accepted }

/-- All terms that must be accepted are accepted. -/
def allRequiredChecked (f : Flow) : Bool :=
  (Term.all.filter Term.isRequired).all f.agreements.accepts

def allSelected (f : Flow) : Bool := Term.all.all f.agreements.accepts

/-- Starts the check for humans unless it has succeeded already. -/
def startVerification (f : Flow) : Flow :=
  if f.turnstile = .success then f else { f with turnstile := .loading }

def verificationSucceeded (f : Flow) : Flow := { f with turnstile := .success }

def verificationFailed (f : Flow) : Flow := { f with turnstile := .error }

def retryVerification (f : Flow) : Flow := { f with turnstile := .idle }

/-- The gate of the current step is open. -/
def canProceed (f : Flow) : Bool :=
  match f.step with
  | .details =>
    f.values.name != "" && f.values.email != ""
      && decide (minPasswordLength ≤ f.values.password.length)
  | .agreements => f.allRequiredChecked
  | .verification => f.turnstile == .success

/-- Leaves the current step if its gate is open. The flow is unchanged by a refusal and by
completion. -/
def next (f : Flow) : Except Fault Outcome × Flow :=
  if f.canProceed then
    match f.step.next? with
    | some step => (.ok (.advanced step), { f with step })
    | none => (.ok (.completed ⟨f.values, f.agreements⟩), f)
  else (.error (.stepNotReady f.step), f)

/-- Goes back one step. -/
def previous (f : Flow) : Flow := { f with step := f.step.previous }

end Flow

end Downline.Signup
