import Mathlib.Algebra.Order.Ring.Int

/-!
# Errors and guards of the API handlers

`MMError` (`mm-core/src/error.rs`) as far as the modelled handlers raise it, the feature
guards of `mm-api/src/guards.rs` and the checks of `mm-core/src/validation.rs`.
-/

namespace MatrixMedia.Api

inductive ErrorCode where
  | notFound
  | forbidden
  | featureDisabled
  | streamActive
  | streamEnded
  | roomFull
  | contentGated
  | insufficientTier
  | tierTooLow
  | permissionDenied
  | balanceTooLow
  | invalidAmount
  | invalidRequest
  | invalidPaymentProvider
  | creatorNotOnboarded
  | webhookInvalid
  | monetizationDisabled
  | subscriptionsDisabled
  | internal
deriving DecidableEq

inductive MMError where
  | api (code : ErrorCode) (message : String)
  | database (e : String)
  | sfu (e : String)
  | internal (e : String)
  | stripe (e : String)
  | lightning (e : String)
deriving DecidableEq

/-- The feature flags of the monetization section. -/
structure Features where
  enabled : Bool
  donationsEnabled : Bool
  subscriptionsEnabled : Bool

namespace Features

def requireMonetization (f : Features) : Except MMError Unit :=
  if f.enabled then .ok () else .error (.api .monetizationDisabled "Monetization is not enabled")

def requireDonations (f : Features) : Except MMError Unit := do
  f.requireMonetization
  if f.donationsEnabled then .ok () else .error (.api .monetizationDisabled "Donations are not enabled")

def requireSubscriptions (f : Features) : Except MMError Unit := do
  f.requireMonetization
  if f.subscriptionsEnabled then .ok () else .error (.api .subscriptionsDisabled "Subscriptions are not enabled")

end Features

/-- The shape of the range checks. -/
def validateRange (low high : Int) (message : String) (n : Int) : Except MMError Unit :=
  if low ≤ n ∧ n ≤ high then .ok () else .error (.api .invalidAmount message)

def validateTierLevel : Int → Except MMError Unit := validateRange 1 5 "Tier level must be 1-5"

def validatePreviewSeconds : Int → Except MMError Unit := validateRange 0 3600 "Preview seconds must be 0-3600"

/-- The amount is checked three times, each time with its own message. -/
def validateDonationAmount (cents min max : Int) : Except MMError Unit :=
  if cents ≤ 0 then .error (.api .invalidAmount "Amount must be positive")
  else if cents < min then .error (.api .invalidAmount ("Minimum donation is " ++ toString min ++ " cents"))
  else if cents > max then .error (.api .invalidAmount ("Maximum donation is " ++ toString max ++ " cents"))
  else .ok ()

end MatrixMedia.Api
