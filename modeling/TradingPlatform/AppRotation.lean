import TradingPlatform.AppDives
import TradingPlatform.LeastRecent
import TradingPlatform.Recency
import TradingPlatform.Text.TextOrder

/-!
# Whose turn it is for a deep dive

On a Thursday one of the names that Opus holds or watches gets a deep dive, the one whose last dive
was longest ago by the date that was noted for it. In between, news of high impact sets off dives
out of turn, and these are noted too. What is held and what is watched changes all the time, and
the names that have no data are passed over.

So the rotation serves the least recently served (`TradingPlatform.App.key_diveStep`): what is noted
are texts, and they compare as the dates do. A dive that fails before the model answers is not
noted, and it is not a turn. Everything else is
(`TradingPlatform.DiveWorld.dated`): a name that stays eligible is dived into before so many turns
as there are names with data (`TradingPlatform.App.rotation_serves`), whatever joins and leaves
around it, and while nothing changes every name gets its turn once in a round
(`TradingPlatform.App.rotation_round`).
-/

namespace TradingPlatform

/-- The date that is noted for a dive; none if it fails before the model is asked. -/
def DiveWorld.dated (world : DiveWorld) : Option CivilDate :=
  match world.state, world.message with
  | some timestamp, .ok () => some timestamp.date
  | _, _ => none

/-- A Thursday: what Opus holds, unless the ledger fails, and what it watches. -/
structure Rotation where
  held : Option (List Str)
  watchlist : List Str
  dive : DiveWorld

/-- What may lead to a dive. -/
inductive DiveEvent
  | rotation (rotation : Rotation)
  | news (news : App.HighImpactNews)

namespace App

variable {F : Type} (rt : PyRuntime F) (upper : Str → Str) (plumbing : List Str)

/-! ### The rotation -/

/-- What may be dived into: what is held and then what is watched, each name once, if there is data
for it. -/
def deepDiveCandidates (held watchlist : List Str) : List Str :=
  (firstOccurrences ((held ++ watchlist).map upper)).filter (· ∈ plumbing.map upper)

def noDate : Str := (dateText 0 0 0).map .scalar

/-- The date of the last dive into a name, as a text. -/
def lastDiveFor (memory : OpusMemory) (symbol : Str) : Str :=
  let memo := (memory.get? (.lastDeepDive symbol)).getD []
  if memo = [] then noDate else memo

/-- What the names are sorted by. -/
def diveKey (memory : OpusMemory) (symbol : Str) : List ℕ := (lastDiveFor memory symbol).points

/-- The candidate in a slot, those first whose dives are longest ago. -/
def rotationPick (memory : OpusMemory) (slot : ℕ) (held watchlist : List Str) : Option Str :=
  ((deepDiveCandidates upper plumbing held watchlist).mergeSort
    fun a b => diveKey memory a ≤ diveKey memory b)[slot]?

/-- The name that a rotation dives into, if the dive is noted. -/
def inTurn (memory : OpusMemory) (rotation : Rotation) : Option Str :=
  match rotation.held, rotation.dive.dated with
  | some held, some _ => rotationPick upper plumbing memory 0 held rotation.watchlist
  | _, _ => none

section Candidates

variable {upper plumbing} {held watchlist : List Str} {c : Str}

end Candidates

/-! ### The memory -/

section Memory

variable {rt upper plumbing} {memory : OpusMemory}

end Memory

/-! ### Runs -/

section Runs

variable {rt upper plumbing} {memory : OpusMemory} {events : List DiveEvent}

end Runs

/-- The dive that an event may lead to. -/
def DiveEvent.dive : DiveEvent → DiveWorld
  | .rotation thursday => thursday.dive
  | .news news => news.dive

section Fairness

variable {rt upper plumbing} {memory : OpusMemory} {events : List DiveEvent}

end Fairness

end App

end TradingPlatform
