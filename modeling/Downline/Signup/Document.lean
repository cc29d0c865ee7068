import Downline.Signup.Flow
import Downline.Json.Writer

/-!
# Signups as JSON

What a completed signup hands out, written for the service that receives it.
-/

namespace Downline.Signup

open Json

/-- The values that were typed in; a referral code that was not given is `null`. -/
def Values.toValue (v : Values) : Value :=
  .object [
    ("name", .text v.name),
    ("email", .text v.email),
    ("password", .text v.password),
    ("referral_code", .ofOption v.referralCode)]

/-- The values and the answers given; terms never answered are left out. -/
def Submission.toValue (s : Submission) : Value :=
  .object [
    ("values", s.values.toValue),
    ("agreements",
      .object (s.agreements.toList.map fun (t, accepted) => (t.name, .bool accepted)))]

/-- The state of the check for humans, by its name. -/
def Turnstile.toValue (t : Turnstile) : Value := .text t.name

end Downline.Signup
