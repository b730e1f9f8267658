import TradingPlatform.Agents.SleeveAgents

/-!
# Skipping an unchanged look

Before an agent is asked to look, the dispatcher compares the fingerprint of the snapshot with
that of the agent's last look, and skips the look if they are equal. It remembers a fingerprint
once the look has returned, and not if it raised; but the agents do not raise when the call of
their model fails.

`TradingPlatform.DispatchRun.Honest` is what skipping should mean: the latest look at such a
snapshot got an answer. `TradingPlatform.DispatchRun.honest_run_iff` says that this can be relied
on exactly as long as every look that returns has got one.
-/

namespace TradingPlatform

/-- A call for an agent's observation, and what it meets: the state of the kill switch at the gate,
the snapshot built for the agent, its watchlist, the ledger of the budget, and the look. -/
structure DispatchCall where
  agent : SleeveAgent
  gateState : KillSwitchState
  state : Agents.AgentSnapshot
  watchlist : List String
  budget : BudgetLedger
  look : Agents.Look

/-- What becomes of a call. -/
inductive DispatchOutcome
  /-- Skipped: only Haiku goes on when the budget is exhausted. -/
  | budgetExhausted
  /-- Skipped: signals unchanged. -/
  | unchanged
  /-- The look raised. -/
  | failed
  /-- The look returned intents, which go on to the risk gate. -/
  | observed (intents : List Intent)

namespace DispatchCall

variable (fmt : Agents.Format) (c : DispatchCall)

def agentId : AgentId := c.agent.agentId

def fingerprint : Option String := c.agent.signalFingerprint fmt c.watchlist c.state

def observed : Agents.Observed := (c.agent.observe c.budget c.state c.look).2

/-- The gate stops the call. -/
def Gated : Prop := c.gateState = .budgetExhausted ∧ c.agentId ≠ .haiku

instance : Decidable c.Gated := inferInstanceAs (Decidable (_ ∧ _))

/-- The fingerprint is that of the agent's last look. -/
def Unchanged (lastFingerprint : Dict AgentId String) : Prop :=
  c.fingerprint fmt ≠ none ∧ lastFingerprint.get? c.agentId = c.fingerprint fmt

instance (lastFingerprint : Dict AgentId String) : Decidable (c.Unchanged fmt lastFingerprint) :=
  inferInstanceAs (Decidable (_ ∧ _))

end DispatchCall

/-- Dispatch an observation. The first component is the memory of last fingerprints. -/
def App.dispatchObservation (fmt : Agents.Format) (lastFingerprint : Dict AgentId String)
    (c : DispatchCall) : Dict AgentId String × DispatchOutcome :=
  if c.Gated then (lastFingerprint, .budgetExhausted)
  else if c.Unchanged fmt lastFingerprint then (lastFingerprint, .unchanged)
  else
    match c.observed.intents with
    | none => (lastFingerprint, .failed)
    | some intents =>
      match c.fingerprint fmt with
      | none => (lastFingerprint, .observed intents)
      | some fp => (lastFingerprint.set c.agentId fp, .observed intents)

/-- A look at a snapshot with a fingerprint, and whether the model answered. -/
structure LookRecord where
  agentId : AgentId
  fingerprint : String
  answered : Bool
  deriving DecidableEq

/-- The dispatcher's memory, and all the looks there were. -/
structure DispatchRun where
  lastFingerprint : Dict AgentId String
  looks : List LookRecord

namespace DispatchRun

def start : DispatchRun := ⟨.empty, []⟩

variable (fmt : Agents.Format)

/-- The looks after a call: one more, if the agent was asked about a snapshot with a
fingerprint. -/
def looksAfter (s : DispatchRun) (c : DispatchCall) : List LookRecord :=
  if c.Gated ∨ c.Unchanged fmt s.lastFingerprint then s.looks
  else
    match c.fingerprint fmt with
    | none => s.looks
    | some fp => s.looks ++ [⟨c.agentId, fp, c.observed.response.isSome⟩]

def step (s : DispatchRun) (c : DispatchCall) : DispatchRun where
  lastFingerprint := (App.dispatchObservation fmt s.lastFingerprint c).1
  looks := s.looksAfter fmt c

/-- The latest look of an agent at a snapshot with some fingerprint. -/
def latest (looks : List LookRecord) (agentId : AgentId) (fp : String) : Option LookRecord :=
  (looks.filter fun look => look.agentId = agentId ∧ look.fingerprint = fp).getLast?

/-- **A call is skipped honestly**: if the signals are said to be unchanged, there was a look at a
snapshot with this fingerprint, and the model answered the latest such look. -/
def Honest (s : DispatchRun) (c : DispatchCall) : Prop :=
  (App.dispatchObservation fmt s.lastFingerprint c).2 = .unchanged →
    ∃ fp ∈ c.fingerprint fmt, ∃ look ∈ latest s.looks c.agentId fp, look.answered = true

/-- **The condition**: if the agent is asked about a snapshot with a fingerprint, the model answers
or the look raises before. -/
def Obtains (s : DispatchRun) (c : DispatchCall) : Prop :=
  ¬c.Gated → ¬c.Unchanged fmt s.lastFingerprint → c.fingerprint fmt ≠ none →
    c.agent.Answers c.budget c.state c.look

/-! ### One call -/

/-- What the dispatcher remembers was answered. -/
def Remembered (s : DispatchRun) : Prop :=
  ∀ agentId fp, s.lastFingerprint.get? agentId = some fp →
    ∃ look ∈ latest s.looks agentId fp, look.answered = true

section Step

variable {fmt} {s : DispatchRun} {c : DispatchCall}

theorem latest_append (looks : List LookRecord) (look : LookRecord) (agentId : AgentId)
    (fp : String) :
    latest (looks ++ [look]) agentId fp =
      if look.agentId = agentId ∧ look.fingerprint = fp then some look
      else latest looks agentId fp := by
  unfold latest
  rw [List.filter_append]
  by_cases h : look.agentId = agentId ∧ look.fingerprint = fp
  · rw [if_pos h, List.filter_cons_of_pos (by simpa using h)]
    simp
  · rw [if_neg h, List.filter_cons_of_neg (by simpa using h)]
    simp

theorem outcome_eq_unchanged_iff :
    (App.dispatchObservation fmt s.lastFingerprint c).2 = .unchanged ↔
      ¬c.Gated ∧ c.Unchanged fmt s.lastFingerprint := by
  unfold App.dispatchObservation
  by_cases hg : c.Gated
  · simp [hg]
  by_cases hu : c.Unchanged fmt s.lastFingerprint
  · simp [hg, hu]
  · rw [if_neg hg, if_neg hu]
    cases c.observed.intents <;> cases c.fingerprint fmt <;> simp [hu]

theorem Remembered.honest (h : s.Remembered) (c : DispatchCall) : s.Honest fmt c := by
  intro hskip
  obtain ⟨-, hfp, hlast⟩ := outcome_eq_unchanged_iff.mp hskip
  obtain ⟨fp, hsome⟩ := Option.ne_none_iff_exists'.mp hfp
  rw [hsome] at hlast
  exact ⟨fp, hsome, h c.agentId fp hlast⟩

/-- A call that is skipped leaves all as it was. -/
theorem step_of_skipped (h : c.Gated ∨ c.Unchanged fmt s.lastFingerprint) : s.step fmt c = s := by
  have hlast : (App.dispatchObservation fmt s.lastFingerprint c).1 = s.lastFingerprint := by
    unfold App.dispatchObservation
    by_cases hg : c.Gated
    · rw [if_pos hg]
    · rw [if_neg hg, if_pos (h.resolve_left hg)]
  have hlooks : s.looksAfter fmt c = s.looks := if_pos h
  rw [step, hlast, hlooks]

/-- A call that asks the agent about a snapshot with a fingerprint. -/
theorem step_of_asked (hg : ¬c.Gated) (hu : ¬c.Unchanged fmt s.lastFingerprint) {fp : String}
    (hfp : c.fingerprint fmt = some fp) :
    s.step fmt c =
      ⟨if c.observed.intents = none then s.lastFingerprint
        else s.lastFingerprint.set c.agentId fp,
        s.looks ++ [⟨c.agentId, fp, c.observed.response.isSome⟩]⟩ := by
  have hlooks : s.looksAfter fmt c =
      s.looks ++ [⟨c.agentId, fp, c.observed.response.isSome⟩] := by
    rw [looksAfter, if_neg (not_or.mpr ⟨hg, hu⟩), hfp]
  have hlast : (App.dispatchObservation fmt s.lastFingerprint c).1 =
      if c.observed.intents = none then s.lastFingerprint
      else s.lastFingerprint.set c.agentId fp := by
    unfold App.dispatchObservation
    rw [if_neg hg, if_neg hu]
    cases c.observed.intents with
    | none => rfl
    | some intents => rw [hfp]; rfl
  rw [step, hlast, hlooks]

/-- A call that asks the agent about a snapshot without one. -/
theorem step_of_no_fingerprint (hg : ¬c.Gated) (hfp : c.fingerprint fmt = none) :
    s.step fmt c = s := by
  have hu : ¬c.Unchanged fmt s.lastFingerprint := fun hu => hu.1 hfp
  have hlooks : s.looksAfter fmt c = s.looks := by
    rw [looksAfter, if_neg (not_or.mpr ⟨hg, hu⟩), hfp]
  have hlast : (App.dispatchObservation fmt s.lastFingerprint c).1 = s.lastFingerprint := by
    unfold App.dispatchObservation
    rw [if_neg hg, if_neg hu]
    cases c.observed.intents with
    | none => rfl
    | some intents => rw [hfp]
  rw [step, hlast, hlooks]

/-- **A call keeps what is remembered answered** if it obtains an answer. -/
theorem Remembered.step (h : s.Remembered) (hc : s.Obtains fmt c) : (s.step fmt c).Remembered := by
  by_cases hg : c.Gated
  · rwa [step_of_skipped (Or.inl hg)]
  by_cases hu : c.Unchanged fmt s.lastFingerprint
  · rwa [step_of_skipped (Or.inr hu)]
  cases hfp : c.fingerprint fmt with
  | none => rwa [step_of_no_fingerprint hg hfp]
  | some fp =>
    have hanswers := hc hg hu (hfp ▸ Option.some_ne_none fp)
    rw [step_of_asked hg hu hfp]
    intro agentId fp' hlast
    dsimp only at hlast ⊢
    rw [latest_append]
    by_cases hintents : c.observed.intents = none
    · -- nothing is remembered; the look was at another snapshot than the remembered one
      rw [if_pos hintents] at hlast
      have hother : ¬(c.agentId = agentId ∧ fp = fp') := by
        rintro ⟨rfl, rfl⟩
        exact hu ⟨hfp ▸ Option.some_ne_none fp, hlast.trans hfp.symm⟩
      rw [if_neg hother]
      exact h agentId fp' hlast
    · have hresponse : c.observed.response.isSome = true :=
        (c.agent.answers_iff c.budget c.state c.look |>.mp hanswers).resolve_left hintents
      rw [if_neg hintents, Dict.get?_set] at hlast
      by_cases hagent : agentId = c.agentId
      · rw [if_pos hagent] at hlast
        rw [if_pos ⟨hagent.symm, Option.some.inj hlast⟩]
        exact ⟨_, rfl, hresponse⟩
      · rw [if_neg hagent] at hlast
        rw [if_neg fun hc => hagent hc.1.symm]
        exact h agentId fp' hlast

/-- A look that returns without an answer is remembered, and the same look is skipped next time. -/
theorem not_honest_step (hc : ¬s.Obtains fmt c) :
    ¬(s.step fmt c).Honest fmt { c with gateState := .ok } := by
  obtain ⟨hg, hc⟩ := Classical.not_imp.mp hc
  obtain ⟨hu, hc⟩ := Classical.not_imp.mp hc
  obtain ⟨hne, hanswers⟩ := Classical.not_imp.mp hc
  obtain ⟨fp, hfp⟩ := Option.ne_none_iff_exists'.mp hne
  rw [SleeveAgent.answers_iff, not_or] at hanswers
  obtain ⟨(hintents : c.observed.intents ≠ none), hresponse⟩ := hanswers
  intro hhonest
  rw [step_of_asked hg hu hfp, if_neg hintents] at hhonest
  have hgate : ¬{ c with gateState := .ok }.Gated := fun h => KillSwitchState.noConfusion h.1
  obtain ⟨fp', hfp', look, hlatest, hanswered⟩ := hhonest
    (outcome_eq_unchanged_iff.mpr ⟨hgate, hne, (Dict.get?_set_self ..).trans hfp.symm⟩)
  obtain rfl : fp = fp' := Option.some.inj (hfp.symm.trans hfp')
  rw [latest_append, if_pos ⟨rfl, rfl⟩] at hlatest
  obtain rfl := Option.some.inj hlatest
  exact hresponse hanswered

end Step

/-! ### Runs -/

/-- **The runs after which any call is skipped honestly**, at every point, are those in which every
look at a snapshot with a fingerprint is answered or raises before the model is asked. -/
theorem honest_run_iff (calls : List DispatchCall) :
    (∀ pre, pre <+: calls → ∀ next, (run (step fmt) start pre).Honest fmt next) ↔
      Along (step fmt) (Obtains fmt) start calls := by
  have hstart : start.Remembered := fun _ _ h => absurd h (by simp [start])
  have hnot : ∀ s c, Remembered s → ¬Obtains fmt s c → ¬∀ next, Honest fmt (step fmt s c) next :=
    fun _ _ _ hc h => not_honest_step hc (h _)
  exact forall_reached_iff_along_of_invariant (fun _ _ hs hc => hs.step hc)
    (fun _ hs => hs.honest) hnot hstart calls

/-! ### A timeout -/

/-- Numbers written without their digits. -/
def plainFormat : Agents.Format := ⟨fun _ => "", fun _ _ => "", fun _ _ _ _ => ""⟩

/-- Haiku is asked about an empty snapshot, and every request to its model times out. -/
def timedOut : DispatchCall where
  agent := .haiku ⟨haikuModel, 3⟩
  gateState := .ok
  state := ⟨.empty, [], .ok, 1, "", []⟩
  watchlist := []
  budget := .new defaultDailyLimit
  look := ⟨"", some "", 0, fun _ => .connection, fun _ => some []⟩

/-- **The next tick is skipped** although the model was never reached. -/
theorem not_honest_timedOut :
    ¬(run (step plainFormat) start [timedOut]).Honest plainFormat timedOut := by
  have hobtains : ¬start.Obtains plainFormat timedOut := by
    intro h
    have hgate : ¬timedOut.Gated := fun hc => KillSwitchState.noConfusion hc.1
    have hnew : ¬timedOut.Unchanged plainFormat start.lastFingerprint := fun hc => by
      simpa [start, hc.1] using hc.2.symm
    obtain ⟨-, hanswer⟩ := h hgate hnew (Option.some_ne_none _)
    exact absurd (hanswer "" rfl).2 (by decide)
  exact not_honest_step hobtains

end DispatchRun

end TradingPlatform
