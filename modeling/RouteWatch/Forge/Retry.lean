import RouteWatch.Action.Basic

/-!
# Trying again

An action that reads is tried again after a response that asks for patience and after a failure
of the network. The pause before the next attempt doubles with each attempt, and the failure of
the last attempt stands.
-/

namespace RouteWatch.Forge

variable {σ α : Type}

/-- The statuses after which a request is sent again. -/
def isRetryable (status : Int) : Bool := status = 429 || status = 503

/-- Why another attempt is due, and the pause before the first one. -/
structure Delay where
  reason : String
  seconds : Nat

/-- Whether a failure is one after which the action is tried again. -/
def delayAfter? : Failure → Option Delay
  | .trouble ⟨.api (some status), _, _⟩ =>
    if isRetryable status then some ⟨"HTTP " ++ Text.showInt status, 5⟩ else none
  | .network message => some ⟨"Network error: " ++ message, 2⟩
  | _ => none

/-- The failure of the last attempt. -/
def finalFailure (attempts : Nat) : Failure → Failure
  | .network message =>
    .trouble ⟨.api none,
      "Request failed after " ++ toString attempts ++ " attempts: " ++ message, none⟩
  | failure => failure

/-- Tries an action, where `attempt` attempts were made before and `left` may follow. -/
def retryFrom (a : Act σ α) (attempt : Nat) : (left : Nat) → Act σ α
  | 0 => a.recover fun failure ↦ Act.fail (finalFailure (attempt + 1) failure)
  | left + 1 =>
    a.recover fun failure ↦
      match delayAfter? failure with
      | none => Act.fail failure
      | some delay => do
        let seconds := Nat.pow 2 attempt * delay.seconds
        Act.print ("[GitHubClient] " ++ delay.reason ++ ". Retrying in " ++ toString seconds ++
          "s... (attempt " ++ toString (attempt + 1) ++ "/" ++ toString (attempt + left + 2) ++
          ")")
        Act.emit (.slept (.whole seconds))
        retryFrom a (attempt + 1) left

/-- Tries an action at most so many times, but once at least. -/
def retry (attempts : Int) (a : Act σ α) : Act σ α := retryFrom a 0 (attempts.toNat - 1)

end RouteWatch.Forge
