import TradingPlatform.Agents.Llm

/-!
# The daily cap under concurrency

Several clients share one ledger, and between the check of a call and its record other calls are
checked. Each check compares with what was recorded, so two calls that fit one by one may not
fit together.

Whether the cap can be exceeded is settled at the check. If every call that passes it fits next
to what is in flight (`TradingPlatform.LlmCalls.RoomFor`), the cap holds however the calls in
flight end; if one does not, there is an end that exceeds it
(`TradingPlatform.LlmCalls.cap_holds_iff_roomFor`).
-/

namespace TradingPlatform

/-- A call that passed the check. -/
structure LlmFlight where
  client : LLMClient
  request : LlmRequest
  /-- Read after the check. -/
  ts : Time
  /-- What the answer is billed for, once it has come. -/
  usage : Option Usage
  deriving DecidableEq

/-- The ledger, and the calls in flight. -/
structure LlmCalls where
  budget : BudgetLedger
  flights : List LlmFlight

/-- One step of one call. -/
inductive LlmOp
  | check (client : LLMClient) (request : LlmRequest) (ts : Time)
  /-- The request of a call comes back, with an answer or with an exception. -/
  | api (k : ℕ) (attempts : ℕ → Attempt)
  | record (k : ℕ)

namespace LlmFlight

/-- What a call may still add to the ledger. A client that makes no attempt gets no answer. -/
def owed (f : LlmFlight) : Decimal :=
  match f.usage with
  | none => if f.client.maxRetries = 0 then 0 else f.client.estCost f.request
  | some usage => cost f.client.model usage

end LlmFlight

namespace LlmCalls

/-- The request of a waiting call comes back. -/
def receive (s : LlmCalls) (k : ℕ) (f : LlmFlight) (attempts : ℕ → Attempt) : LlmCalls :=
  match f.client.answer attempts with
  | none => { s with flights := s.flights.eraseIdx k }
  | some (_, usage) => { s with flights := s.flights.set k { f with usage := some usage } }

/-- An answered call records its cost and is over. -/
def finish (s : LlmCalls) (k : ℕ) (f : LlmFlight) (usage : Usage) : LlmCalls where
  budget := f.client.recordAnswer s.budget f.request f.ts usage
  flights := s.flights.eraseIdx k

def step (s : LlmCalls) : LlmOp → LlmCalls
  | .check client request ts =>
    if client.affords s.budget request then
      { s with flights := s.flights ++ [⟨client, request, ts, none⟩] }
    else s
  | .api k attempts =>
    match s.flights[k]? with
    | none => s
    | some f => if f.usage.isSome then s else s.receive k f attempts
  | .record k =>
    match s.flights[k]? with
    | none => s
    | some f =>
      match f.usage with
      | none => s
      | some usage => s.finish k f usage

/-- What the calls in flight may still add. -/
def pending (s : LlmCalls) : Decimal := (s.flights.map LlmFlight.owed).sum

/-- **What can happen** within a date: every instant is of that date, and an answer costs no more
than its call was priced at. -/
def Within (day : Date) (s : LlmCalls) : LlmOp → Prop
  | .check _ _ ts => ts.date = day
  | .api k attempts => ∀ f, s.flights[k]? = some f → ∀ text usage,
    f.client.answer attempts = some (text, usage) →
      cost f.client.model usage ≤ f.client.estCost f.request
  | .record _ => True

/-- A step of a call that was checked before. -/
def Ending (day : Date) (s : LlmCalls) (op : LlmOp) : Prop :=
  s.Within day op ∧ ∀ client request ts, op ≠ .check client request ts

/-- **The condition**: a call that passes the check fits next to the calls in flight. -/
def RoomFor (day : Date) (s : LlmCalls) : LlmOp → Prop
  | .check client request ts => client.affords s.budget request = true →
    s.pending + LlmFlight.owed ⟨client, request, ts, none⟩ ≤
      s.budget.limit - s.budget.spentOn day
  | .api _ _ | .record _ => True

/-! ### One step -/

/-- Nothing recorded is negative, all calls in flight are of one date, and they fit. -/
structure Fits (day : Date) (cap : Decimal) (s : LlmCalls) : Prop where
  limit : s.budget.limit = cap
  nonneg : 0 ≤ s.budget.total
  total : s.budget.total ≤ cap
  dated : ∀ f ∈ s.flights, f.ts.date = day
  pending : s.budget.spentOn day + s.pending ≤ cap

end LlmCalls

theorem LLMClient.estCost_nonneg (client : LLMClient) (request : LlmRequest) :
    0 ≤ client.estCost request := cost_nonneg _ _

/-- A client that makes no attempt gets no answer. -/
theorem LLMClient.maxRetries_ne_zero {client : LLMClient} {attempts : ℕ → Attempt}
    {r : String × Usage} (h : client.answer attempts = some r) : client.maxRetries ≠ 0 := by
  intro h₀
  rw [LLMClient.answer, h₀] at h
  exact absurd h (by simp [LLMClient.callWithRetry])

namespace LlmFlight

theorem owed_nonneg (f : LlmFlight) : 0 ≤ f.owed := by
  unfold owed
  split
  · split_ifs
    · exact le_rfl
    · exact f.client.estCost_nonneg f.request
  · exact cost_nonneg _ _

/-- An answer costs no more than the call may add. -/
theorem owed_answered_le {f : LlmFlight} (hf : f.usage = none) {attempts : ℕ → Attempt}
    {text : String} {usage : Usage} (hr : f.client.answer attempts = some (text, usage))
    (hcost : cost f.client.model usage ≤ f.client.estCost f.request) :
    owed { f with usage := some usage } ≤ f.owed := by
  have hmax := LLMClient.maxRetries_ne_zero hr
  have howed : f.owed = f.client.estCost f.request := by simp [owed, hf, hmax]
  rw [howed]
  exact hcost

end LlmFlight

namespace LlmCalls

theorem pending_nonneg (s : LlmCalls) : 0 ≤ s.pending :=
  List.sum_nonneg (by simpa using fun f _ => LlmFlight.owed_nonneg f)

/-- One call's share of what is pending. -/
theorem pending_eraseIdx {flights : List LlmFlight} {k : ℕ} {f : LlmFlight}
    (hk : flights[k]? = some f) :
    f.owed + ((flights.eraseIdx k).map LlmFlight.owed).sum =
      (flights.map LlmFlight.owed).sum := by
  obtain ⟨hlt, rfl⟩ := List.getElem?_eq_some_iff.mp hk
  have hperm := (List.getElem_cons_eraseIdx_perm hlt).map LlmFlight.owed
  simpa using hperm.sum_eq

theorem pending_set {flights : List LlmFlight} {k : ℕ} {f g : LlmFlight}
    (hk : flights[k]? = some f) :
    ((flights.set k g).map LlmFlight.owed).sum + f.owed =
      (flights.map LlmFlight.owed).sum + g.owed := by
  obtain ⟨hlt, -⟩ := List.getElem?_eq_some_iff.mp hk
  have hg : (flights.set k g)[k]? = some g := by simp [hlt]
  have h₁ := pending_eraseIdx hg
  have h₂ := pending_eraseIdx hk
  rw [List.eraseIdx_set_eq] at h₁
  linarith

section Step

variable {day : Date} {cap : Decimal} {s : LlmCalls}

theorem spentOn_nonneg (h : 0 ≤ s.budget.total) (day : Date) : 0 ≤ s.budget.spentOn day := by
  unfold BudgetLedger.spentOn
  split_ifs
  · exact h
  · exact le_rfl

theorem pending_check (client : LLMClient) (request : LlmRequest) (ts : Time) :
    pending { s with flights := s.flights ++ [⟨client, request, ts, none⟩] } =
      s.pending + LlmFlight.owed ⟨client, request, ts, none⟩ := by
  simp [pending]

/-- A request that comes back adds nothing to what is pending. -/
theorem pending_receive_le {k : ℕ} {f : LlmFlight} (hk : s.flights[k]? = some f)
    (hf : f.usage = none) {attempts : ℕ → Attempt}
    (hcost : ∀ text usage, f.client.answer attempts = some (text, usage) →
      cost f.client.model usage ≤ f.client.estCost f.request) :
    (s.receive k f attempts).pending ≤ s.pending := by
  unfold receive
  cases hr : f.client.answer attempts with
  | none =>
    have herase := pending_eraseIdx hk
    have howed := f.owed_nonneg
    change ((s.flights.eraseIdx k).map LlmFlight.owed).sum ≤ (s.flights.map LlmFlight.owed).sum
    linarith
  | some r =>
    obtain ⟨text, usage⟩ := r
    have howed := LlmFlight.owed_answered_le hf hr (hcost text usage hr)
    have hset := pending_set hk (g := { f with usage := some usage })
    change ((s.flights.set k { f with usage := some usage }).map LlmFlight.owed).sum ≤
      (s.flights.map LlmFlight.owed).sum
    linarith

/-- A record moves a call's cost from what is pending to what is recorded. -/
theorem spentOn_finish (hdated : ∀ f ∈ s.flights, f.ts.date = day) {k : ℕ} {f : LlmFlight}
    (hk : s.flights[k]? = some f) {usage : Usage} (hf : f.usage = some usage) :
    (s.finish k f usage).budget.spentOn day + (s.finish k f usage).pending =
      s.budget.spentOn day + s.pending := by
  have hday : f.ts.date = day := hdated f (List.mem_of_getElem? hk)
  have howed : f.owed = cost f.client.model usage := by simp [LlmFlight.owed, hf]
  have herase := pending_eraseIdx hk
  have hspent : (s.finish k f usage).budget.spentOn day = s.budget.spentOn day + f.owed := by
    rw [howed, ← hday]
    exact BudgetLedger.spentOn_recordSpend
  change _ + ((s.flights.eraseIdx k).map LlmFlight.owed).sum =
    _ + (s.flights.map LlmFlight.owed).sum
  rw [hspent]
  linarith

/-- After a record the ledger holds the date. -/
theorem total_finish (hdated : ∀ f ∈ s.flights, f.ts.date = day) {k : ℕ} {f : LlmFlight}
    (hk : s.flights[k]? = some f) (usage : Usage) :
    (s.finish k f usage).budget.total = (s.finish k f usage).budget.spentOn day := by
  have hday : f.ts.date = day := hdated f (List.mem_of_getElem? hk)
  rw [← hday]
  exact BudgetLedger.total_recordSpend_eq.trans BudgetLedger.spentOn_recordSpend.symm

theorem Fits.receive (h : s.Fits day cap) {k : ℕ} {f : LlmFlight}
    (hk : s.flights[k]? = some f) (hf : f.usage = none) {attempts : ℕ → Attempt}
    (hcost : ∀ text usage, f.client.answer attempts = some (text, usage) →
      cost f.client.model usage ≤ f.client.estCost f.request) :
    (s.receive k f attempts).Fits day cap := by
  have hpending := pending_receive_le hk hf hcost
  have hbudget : (s.receive k f attempts).budget = s.budget := by
    unfold LlmCalls.receive
    cases f.client.answer attempts <;> rfl
  refine ⟨hbudget ▸ h.limit, hbudget ▸ h.nonneg, hbudget ▸ h.total, fun g hg => ?_, ?_⟩
  · unfold LlmCalls.receive at hg
    cases hr : f.client.answer attempts with
    | none =>
      rw [hr] at hg
      exact h.dated g (List.mem_of_mem_eraseIdx hg)
    | some r =>
      rw [hr] at hg
      rcases List.mem_or_eq_of_mem_set hg with hg | rfl
      · exact h.dated g hg
      · exact h.dated f (List.mem_of_getElem? hk)
  · rw [hbudget]
    have := h.pending
    linarith

theorem Fits.finish (h : s.Fits day cap) {k : ℕ} {f : LlmFlight}
    (hk : s.flights[k]? = some f) {usage : Usage} (hf : f.usage = some usage) :
    (s.finish k f usage).Fits day cap := by
  have hspent := spentOn_finish h.dated hk hf
  have htotal := total_finish h.dated hk usage
  have hnonneg : 0 ≤ (s.finish k f usage).budget.total := by
    refine le_of_le_of_eq ?_ BudgetLedger.total_recordSpend_eq.symm
    exact add_nonneg (spentOn_nonneg h.nonneg _) (cost_nonneg _ _)
  have hpending := pending_nonneg (s.finish k f usage)
  have hfits := h.pending
  refine ⟨(BudgetLedger.limit_recordSpend ..).trans h.limit, hnonneg, ?_, fun g hg =>
    h.dated g (List.mem_of_mem_eraseIdx hg), ?_⟩ <;> linarith

/-- **A step keeps the calls fitting** if a call that passes the check does. -/
theorem Fits.step (h : s.Fits day cap) {op : LlmOp} (hop : s.Within day op)
    (hroom : s.RoomFor day op) : (s.step op).Fits day cap := by
  cases op with
  | check client request ts =>
    rw [LlmCalls.step]
    by_cases ha : client.affords s.budget request = true
    · rw [if_pos ha]
      refine ⟨h.limit, h.nonneg, h.total, fun g hg => ?_, ?_⟩
      · rcases List.mem_append.mp hg with hg | hg
        · exact h.dated g hg
        · rw [List.mem_singleton.mp hg]
          exact hop
      · have hfit := hroom ha
        rw [h.limit] at hfit
        rw [pending_check]
        change s.budget.spentOn day + _ ≤ cap
        linarith
    · rw [if_neg ha]
      exact h
  | api k attempts =>
    rw [LlmCalls.step]
    cases hk : s.flights[k]? with
    | none => exact h
    | some f =>
      dsimp only
      cases hf : f.usage with
      | none => exact h.receive hk hf (hop f hk)
      | some usage => exact h
  | record k =>
    rw [LlmCalls.step]
    cases hk : s.flights[k]? with
    | none => exact h
    | some f =>
      dsimp only
      cases hf : f.usage with
      | none => exact h
      | some usage => exact h.finish hk hf

end Step

/-! ### The dearest end -/

section Dearest

variable {day : Date} {s : LlmCalls}

/-- A request whose first attempt is answered. -/
theorem answer_of_response {client : LLMClient} (h : client.maxRetries ≠ 0) (text : String)
    (usage : Usage) :
    client.answer (fun _ => .response ⟨some text, usage⟩) = some (text, usage) := by
  obtain ⟨n, hn⟩ := Nat.exists_eq_succ_of_ne_zero h
  simp [LLMClient.answer, hn, LLMClient.callWithRetry]

/-- The first call in flight can end so that all it may add is recorded. -/
theorem exists_ending_head {f : LlmFlight} {fs : List LlmFlight} (hs : s.flights = f :: fs)
    (hdated : ∀ g ∈ s.flights, g.ts.date = day) :
    ∃ rest, Along step (Ending day) s rest ∧ (run step s rest).flights = fs ∧
      (run step s rest).budget.spentOn day + (run step s rest).pending =
        s.budget.spentOn day + s.pending := by
  have hk : s.flights[0]? = some f := by simp [hs]
  have hrecord : ∀ s : LlmCalls, s.Ending day (.record 0) :=
    fun _ => ⟨trivial, fun _ _ _ => LlmOp.noConfusion⟩
  cases hf : f.usage with
  | some usage =>
    have hstep : s.step (.record 0) = s.finish 0 f usage := by simp [step, hk, hf]
    refine ⟨[.record 0], ⟨hrecord s, trivial⟩, ?_, ?_⟩
    · rw [run_cons, run_nil, hstep, finish, hs, List.eraseIdx_cons_zero]
    · rw [run_cons, run_nil, hstep]
      exact spentOn_finish hdated hk hf
  | none =>
    by_cases hmax : f.client.maxRetries = 0
    · -- the request is never made
      have hanswer : f.client.answer (fun _ => .other) = none := by
        simp [LLMClient.answer, hmax, LLMClient.callWithRetry]
      have hstep : s.step (.api 0 fun _ => .other) = { s with flights := fs } := by
        simp [step, hf, receive, hanswer, hs]
      refine ⟨[.api 0 fun _ => .other], ⟨⟨fun g hg text usage hr => ?_, fun _ _ _ =>
        LlmOp.noConfusion⟩, trivial⟩, by rw [run_cons, run_nil, hstep], ?_⟩
      · obtain rfl : f = g := Option.some.inj (hk.symm.trans hg)
        rw [hanswer] at hr
        cases hr
      · have howed : f.owed = 0 := by simp [LlmFlight.owed, hf, hmax]
        rw [run_cons, run_nil, hstep]
        simp [pending, hs, howed]
    · -- the answer costs exactly the estimate
      have hanswer := answer_of_response hmax "" (LLMClient.estUsage f.request)
      have hstep : s.step (.api 0 fun _ => .response ⟨some "", LLMClient.estUsage f.request⟩) =
          { s with flights := { f with usage := some (LLMClient.estUsage f.request) } :: fs } := by
        simp [step, hf, receive, hanswer, hs]
      have hdated' : ∀ g ∈ { f with usage := some (LLMClient.estUsage f.request) } :: fs,
          g.ts.date = day := by
        intro g hg
        rcases List.mem_cons.mp hg with rfl | hg
        · exact hdated f (List.mem_of_getElem? hk)
        · exact hdated g (hs ▸ List.mem_cons_of_mem f hg)
      refine ⟨[.api 0 fun _ => .response ⟨some "", LLMClient.estUsage f.request⟩, .record 0],
        ⟨⟨fun g hg text usage hr => ?_, fun _ _ _ => LlmOp.noConfusion⟩, hrecord _, trivial⟩,
        ?_, ?_⟩
      · obtain rfl : f = g := Option.some.inj (hk.symm.trans hg)
        obtain ⟨-, rfl⟩ := Prod.mk.inj (Option.some.inj (hanswer.symm.trans hr))
        exact le_rfl
      · rw [run_cons, hstep]
        rfl
      · rw [run_cons, hstep]
        refine (spentOn_finish (k := 0) hdated' rfl rfl).trans ?_
        have howed : f.owed = f.client.estCost f.request := by simp [LlmFlight.owed, hf, hmax]
        have howed' : LlmFlight.owed { f with usage := some (LLMClient.estUsage f.request) } =
            f.client.estCost f.request := rfl
        simp [pending, hs, howed, howed']

/-- All calls in flight can end so that all they may add is recorded. -/
theorem exists_ending (hdated : ∀ g ∈ s.flights, g.ts.date = day) :
    ∃ rest, Along step (Ending day) s rest ∧
      (run step s rest).budget.spentOn day = s.budget.spentOn day + s.pending := by
  obtain ⟨fs, hfs⟩ : ∃ fs, s.flights = fs := ⟨_, rfl⟩
  induction fs generalizing s with
  | nil => exact ⟨[], trivial, by simp [pending, hfs]⟩
  | cons f fs ih =>
    obtain ⟨rest, halong, hflights, hsum⟩ := exists_ending_head hfs hdated
    have hdated' : ∀ g ∈ (run step s rest).flights, g.ts.date = day := fun g hg =>
      hdated g (hfs ▸ List.mem_cons_of_mem f (hflights ▸ hg))
    obtain ⟨rest', halong', hspent⟩ := ih hdated' hflights
    refine ⟨rest ++ rest', along_append.mpr ⟨halong, halong'⟩, ?_⟩
    rw [run_append, hspent, hsum]

end Dearest

/-! ### Runs -/

section Runs

variable {day : Date} {s : LlmCalls}

theorem Ending.roomFor {op : LlmOp} (h : s.Ending day op) : s.RoomFor day op := by
  cases op with
  | check client request ts => exact absurd rfl (h.2 client request ts)
  | api k attempts => trivial
  | record k => trivial

/-- What is recorded is never negative. -/
theorem nonneg_step (h : 0 ≤ s.budget.total) (op : LlmOp) : 0 ≤ (s.step op).budget.total := by
  cases op with
  | check client request ts =>
    rw [step]
    split_ifs <;> exact h
  | api k attempts =>
    rw [step]
    cases s.flights[k]? with
    | none => exact h
    | some f =>
      dsimp only
      split_ifs
      · exact h
      · unfold receive
        cases f.client.answer attempts <;> exact h
  | record k =>
    rw [step]
    cases s.flights[k]? with
    | none => exact h
    | some f =>
      dsimp only
      cases f.usage with
      | none => exact h
      | some usage =>
        refine le_of_le_of_eq ?_ BudgetLedger.total_recordSpend_eq.symm
        exact add_nonneg (spentOn_nonneg h _) (cost_nonneg _ _)

/-- However the calls in flight end, no more than `cap` is recorded. -/
def Safe (day : Date) (cap : Decimal) (s : LlmCalls) : Prop :=
  ∀ rest, Along step (Ending day) s rest → (run step s rest).budget.total ≤ cap

theorem Fits.safe {cap : Decimal} (h : s.Fits day cap) : s.Safe day cap := by
  intro rest hrest
  have hstep : ∀ s op, s.Fits day cap → Ending day s op → (LlmCalls.step s op).Fits day cap :=
    fun _ _ hs hop => hs.step hop.1 hop.roomFor
  exact (hrest.invariant hstep h).total

/-- A call that passes the check and does not fit can end above the cap. -/
theorem Fits.not_safe_step {cap : Decimal} (h : s.Fits day cap) {op : LlmOp}
    (hop : s.Within day op) (hroom : ¬s.RoomFor day op) : ¬(s.step op).Safe day cap := by
  intro hsafe
  cases op with
  | api k attempts => exact hroom trivial
  | record k => exact hroom trivial
  | check client request ts =>
    obtain ⟨ha, hfit⟩ := Classical.not_imp.mp hroom
    rw [LlmCalls.step, if_pos ha] at hsafe
    have hdated : ∀ g ∈ s.flights ++ [⟨client, request, ts, none⟩], g.ts.date = day := by
      intro g hg
      rcases List.mem_append.mp hg with hg | hg
      · exact h.dated g hg
      · rw [List.mem_singleton.mp hg]
        exact hop
    obtain ⟨rest, hrest, hspent⟩ := exists_ending
      (s := { s with flights := s.flights ++ [⟨client, request, ts, none⟩] }) hdated
    have htotal := hsafe rest hrest
    have hstep : ∀ (s : LlmCalls) (op : LlmOp), 0 ≤ s.budget.total → 0 ≤ (s.step op).budget.total :=
      fun _ op hs => nonneg_step hs op
    have hnonneg := run_invariant hstep
      (s := { s with flights := s.flights ++ [⟨client, request, ts, none⟩] }) h.nonneg rest
    have hle := BudgetLedger.spentOn_le hnonneg day
    rw [pending_check] at hspent
    rw [h.limit] at hfit
    change _ = s.budget.spentOn day + _ at hspent
    linarith

/-- **The runs that keep the cap** however the calls in flight end are those in which every call
that passes the check fits next to them. -/
theorem cap_holds_iff_roomFor (hflights : s.flights = []) (hnonneg : 0 ≤ s.budget.total)
    (hlimit : s.budget.total ≤ s.budget.limit) {ops : List LlmOp}
    (hops : Along step (Within day) s ops) :
    (∀ pre, pre <+: ops → ∀ rest, Along step (Ending day) (run step s pre) rest →
        (run step (run step s pre) rest).budget.total ≤ s.budget.limit) ↔
      Along step (RoomFor day) s ops := by
  have hspent := BudgetLedger.spentOn_le hnonneg day
  have hfits : s.Fits day s.budget.limit := by
    refine ⟨rfl, hnonneg, hlimit, by simp [hflights], ?_⟩
    simpa [pending, hflights] using hspent.trans hlimit
  exact forall_reached_iff_along_within (P := Safe day s.budget.limit)
    (fun _ _ hs hop hroom => hs.step hop hroom) (fun _ hs => hs.safe)
    (fun _ _ hs hop hroom => hs.not_safe_step hop hroom) hfits hops

/-! ### Two calls at once -/

def opusClient : LLMClient := ⟨opusModel, 3⟩

/-- Priced at 60 cents. -/
def longRequest : LlmRequest := ⟨"", "", .opus, "deep_dive", 8000⟩

/-- The answer uses every token that it may. -/
def longAnswer : ℕ → Attempt := fun _ => .response ⟨some "", LLMClient.estUsage longRequest⟩

def idle : LlmCalls := ⟨.new defaultDailyLimit, []⟩

def inTurn : List LlmOp :=
  [.check opusClient longRequest 0, .api 0 longAnswer, .record 0,
    .check opusClient longRequest 0]

def atOnce : List LlmOp :=
  [.check opusClient longRequest 0, .check opusClient longRequest 0, .api 0 longAnswer,
    .api 1 longAnswer, .record 0, .record 0]

theorem longAnswer_within {k : ℕ} {s : LlmCalls}
    (h : ∀ f ∈ s.flights, f.client = opusClient ∧ f.request = longRequest) (day : Date) :
    s.Within day (.api k longAnswer) := by
  intro f hf text usage hr
  obtain ⟨hclient, hrequest⟩ := h f (List.mem_of_getElem? hf)
  have hanswer : opusClient.answer longAnswer = some ("", LLMClient.estUsage longRequest) :=
    answer_of_response (by decide) "" _
  rw [hclient] at hr ⊢
  obtain ⟨-, rfl⟩ := Prod.mk.inj (Option.some.inj (hanswer.symm.trans hr))
  rw [hrequest]
  exact le_rfl

theorem within_inTurn : Along step (Within 0) idle inTurn :=
  ⟨rfl, longAnswer_within (by decide +kernel) 0, trivial, rfl, trivial⟩

theorem within_atOnce : Along step (Within 0) idle atOnce :=
  ⟨rfl, rfl, longAnswer_within (by decide +kernel) 0, longAnswer_within (by decide +kernel) 0,
    trivial, trivial, trivial⟩

/-- One after the other, the second call is refused. -/
theorem total_inTurn_le : (run step idle inTurn).budget.total ≤ defaultDailyLimit := by
  have hroom : Along step (RoomFor 0) idle inTurn :=
    ⟨fun _ => by decide +kernel, trivial, trivial, fun ha => absurd ha (by decide +kernel), trivial⟩
  have hcap := (cap_holds_iff_roomFor (s := idle) rfl le_rfl (by decide +kernel)
    within_inTurn).mpr hroom
  exact hcap inTurn (List.prefix_refl _) [] trivial

/-- **At once, both pass** the check, and the recorded total is above the limit. -/
theorem not_cap_atOnce :
    ¬∀ ops, Along step (Within 0) idle ops →
      (run step idle ops).budget.total ≤ defaultDailyLimit := by
  intro h
  exact absurd (h atOnce within_atOnce) (by decide +kernel)

end Runs

end LlmCalls

end TradingPlatform
