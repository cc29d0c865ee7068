/-!
# Steps of the signup

The signup asks for three things in a fixed order: details, agreements and verification. Steps
are passed one at a time, forward and back.
-/

namespace Downline.Signup

/-- A step of the signup. -/
inductive Step where
  | details
  | agreements
  | verification
  deriving DecidableEq, Repr

namespace Step

/-- Place of the step in the signup, counted from one. -/
def number : Step → Nat
  | details => 1
  | agreements => 2
  | verification => 3

def label : Step → String
  | details => "정보 입력"
  | agreements => "약관 동의"
  | verification => "보안 인증"

/-- Number and label, as in `2 (약관 동의)`. -/
def title (s : Step) : String := toString s.number ++ " (" ++ s.label ++ ")"

/-- The step after this one; the last has none. -/
def next? : Step → Option Step
  | details => some agreements
  | agreements => some verification
  | verification => none

/-- The step before this one; the first stays. -/
def previous : Step → Step
  | details => details
  | agreements => details
  | verification => agreements

end Step

end Downline.Signup
