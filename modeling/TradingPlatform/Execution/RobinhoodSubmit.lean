import TradingPlatform.Execution.RobinhoodBroker
import TradingPlatform.Execution.FakeBroker
import TradingPlatform.Run

/-!
# Placing an order at Robinhood

A submission claims the order, asks the tool to place it, reads the identifier off the answer and
keeps it, so that a second submission gets the same identifier and places nothing. Every failure
releases the claim.

The answers of the tools come in an envelope. Every other method of the adapter unwraps it; this
one looks for the identifier on the envelope itself. So it reports what happened exactly when no
answer hides its identifier in an envelope that does not repeat it
(`TradingPlatform.SubmitDesk.along_reports_iff`). Otherwise it reports a rejection of an order
that is live at the broker.
-/

namespace TradingPlatform

/-- How a call of the placing tool came out. -/
inductive PlaceCall
  /-- One of the adapter's own errors. -/
  | brokerError (error : BrokerError)
  /-- Any other exception. -/
  | raised
  | returned (resp : Json)

/-- The identifier of an order in a record, empty if there is none. -/
def idText (fields : List (String × Json)) : String :=
  (((getField fields "id").orElse (getField fields "order_id")).orElse (.str "")).text

/-- The text of a value in a message. A string is quoted; what it holds is not escaped. -/
def Json.repr : Json → String
  | .str text => "'" ++ text ++ "'"
  | value => value.text

/-- The adapter, with the orders it submitted. -/
structure RobinhoodSubmitter extends RobinhoodBroker where
  submitted : Dict OrderId String
  dryRunOrders : Dict String Order

namespace RobinhoodSubmitter

/-- What stands for an order that is being placed. -/
def INFLIGHT : String := "__INFLIGHT__"

/-- The adapter at its start. -/
def initial (live hasClient : Bool) : RobinhoodSubmitter :=
  ⟨⟨live, hasClient⟩, .empty, .empty⟩

/-- The first part of `submit_order`: an answer at once, or a claim on the order. -/
def claim (rb : RobinhoodSubmitter) (clientId : OrderId) :
    Option (Except BrokerError String) × RobinhoodSubmitter :=
  match rb.submitted.get? clientId with
  | some existing =>
    if existing ≠ INFLIGHT then (some (.ok existing), rb)
    else (some (.error .unavailable), rb)  -- another thread is placing it
  | none => (none, { rb with submitted := rb.submitted.set clientId INFLIGHT })

/-- Release a claim. -/
def release (rb : RobinhoodSubmitter) (clientId : OrderId) : RobinhoodSubmitter :=
  { rb with submitted := rb.submitted.erase clientId }

/-- Keep the identifier of an order. -/
def keep (rb : RobinhoodSubmitter) (clientId : OrderId) (brokerId : String) :
    RobinhoodSubmitter :=
  { rb with submitted := rb.submitted.set clientId brokerId }

/-- The second part of `submit_order`, which holds the claim. -/
def place (rb : RobinhoodSubmitter) (order : Order) (uuid : String) (call : PlaceCall) :
    Except BrokerError String × RobinhoodSubmitter :=
  if ¬rb.live ∨ ¬rb.hasClient then
    let brokerId := "DRYRUN-" ++ uuid
    (.ok brokerId,
      { rb.keep order.id brokerId with dryRunOrders := rb.dryRunOrders.set brokerId order })
  else
    match call with
    | .brokerError error => (.error error, rb.release order.id)
    | .raised => (.error .unavailable, rb.release order.id)
    | .returned resp =>
      match resp with
      | .obj text fields =>
        let brokerId := idText fields
        if brokerId = "" then
          (.error (.rejection ("Robinhood place_equity_order returned no id. Full response: " ++
            text)), rb.release order.id)
        else (.ok brokerId, rb.keep order.id brokerId)
      | resp =>
        (.error (.rejection ("Robinhood place_equity_order non-dict response: " ++ resp.repr)),
          rb.release order.id)

/-- Submit an order, with nobody else at work. -/
def submitOrder (rb : RobinhoodSubmitter) (order : Order) (uuid : String) (call : PlaceCall) :
    Except BrokerError String × RobinhoodSubmitter :=
  match rb.claim order.id with
  | (some reply, rb) => (reply, rb)
  | (none, rb) => rb.place order uuid call

end RobinhoodSubmitter

/-- The identifier a response carries, where every method looks for its data. -/
def answerId (resp : Json) : String := idText (responseData resp)

/-! ### Submissions in any order -/

/-- The adapter, the submissions that hold a claim, and the identifiers that were returned. -/
structure SubmitDesk where
  broker : RobinhoodSubmitter
  placing : Finset OrderId
  answers : List (OrderId × String)

/-- One of the two parts of a submission. -/
inductive SubmitStep
  | claim (order : Order)
  | place (order : Order) (uuid : String) (call : PlaceCall)

namespace SubmitDesk

variable {s : SubmitDesk} {a : SubmitStep}

/-- The desk at its start. -/
def initial (live hasClient : Bool) : SubmitDesk := ⟨.initial live hasClient, ∅, []⟩

/-- Note what a submission returned. -/
def answer (s : SubmitDesk) (k : OrderId) : Except BrokerError String → SubmitDesk
  | .ok id => { s with answers := s.answers ++ [(k, id)] }
  | .error _ => s

/-- What a step returns to its caller. A claim that is granted returns nothing yet. -/
def reply (s : SubmitDesk) : SubmitStep → Option (Except BrokerError String)
  | .claim order => (s.broker.claim order.id).1
  | .place order uuid call =>
    if order.id ∈ s.placing then some (s.broker.place order uuid call).1 else none

/-- The order a step places: the tool either places the order and answers with its identifier, or
fails without placing it. -/
def placed (s : SubmitDesk) : SubmitStep → Option (OrderId × String)
  | .place order _ (.returned resp) =>
    if order.id ∈ s.placing ∧ s.broker.live ∧ s.broker.hasClient ∧ answerId resp ≠ ""
    then some (order.id, answerId resp) else none
  | _ => none

def step (s : SubmitDesk) : SubmitStep → SubmitDesk
  | .claim order =>
    match s.broker.claim order.id with
    | (some reply, broker) => { s with broker }.answer order.id reply
    | (none, broker) => { s with broker, placing := insert order.id s.placing }
  | .place order uuid call =>
    if order.id ∈ s.placing then
      let (reply, broker) := s.broker.place order uuid call
      { s with broker, placing := s.placing.erase order.id }.answer order.id reply
    else s

/-- **A step reports what happened**: the identifier of an order that was placed is returned, a
rejection is reported only if nothing was placed, and once an identifier was returned for an order,
that order is not placed again, and another submission of it returns the same. -/
structure Reports (s : SubmitDesk) (a : SubmitStep) : Prop where
  returned : ∀ k id, s.placed a = some (k, id) → s.reply a = some (.ok id)
  rejected : ∀ reason, s.reply a = some (.error (.rejection reason)) → s.placed a = none
  once : ∀ k id, (k, id) ∈ s.answers → ∀ id', s.placed a ≠ some (k, id')
  again : ∀ order id, a = .claim order → (order.id, id) ∈ s.answers → s.reply a = some (.ok id)

/-- An answer can be read: if its data has an identifier, the envelope has the same. -/
def ReadableId (resp : Json) : Prop :=
  answerId resp ≠ "" → ∀ text fields, resp = .obj text fields → idText fields = answerId resp

/-- **The condition**: an answer to the adapter can be read, and no order that is submitted again
got the text that stands for a claim as its identifier. -/
def Readable (s : SubmitDesk) : SubmitStep → Prop
  | .claim order => (order.id, RobinhoodSubmitter.INFLIGHT) ∉ s.answers
  | .place order _ call => order.id ∈ s.placing → s.broker.live → s.broker.hasClient →
      ∀ resp, call = .returned resp → ReadableId resp

/-- What was returned is kept, and a submission that holds a claim has it written down. -/
structure Kept (s : SubmitDesk) : Prop where
  answered : ∀ k id, (k, id) ∈ s.answers → s.broker.submitted.get? k = some id
  claimed : ∀ k ∈ s.placing, s.broker.submitted.get? k = some RobinhoodSubmitter.INFLIGHT
  apart : ∀ k ∈ s.placing, ∀ id, (k, id) ∉ s.answers

/-! ### What the parts of a submission leave -/

theorem claim_of_none {rb : RobinhoodSubmitter} {k : OrderId} (h : rb.submitted.get? k = none) :
    rb.claim k = (none, rb.keep k RobinhoodSubmitter.INFLIGHT) := by
  rw [RobinhoodSubmitter.claim, h]
  rfl

theorem claim_of_some {rb : RobinhoodSubmitter} {k : OrderId} {existing : String}
    (h : rb.submitted.get? k = some existing) :
    rb.claim k = (some (if existing ≠ RobinhoodSubmitter.INFLIGHT then .ok existing
      else .error .unavailable), rb) := by
  rw [RobinhoodSubmitter.claim, h]
  dsimp only
  split_ifs <;> rfl

/-- A placement keeps the identifier it returns, and releases the claim if it fails. -/
theorem place_spec (rb : RobinhoodSubmitter) (order : Order) (uuid : String) (call : PlaceCall) :
    (∃ id, (rb.place order uuid call).1 = .ok id ∧
      (rb.place order uuid call).2.submitted = rb.submitted.set order.id id) ∨
    ∃ error, (rb.place order uuid call).1 = .error error ∧
      (rb.place order uuid call).2.submitted = rb.submitted.erase order.id := by
  unfold RobinhoodSubmitter.place
  by_cases hdry : ¬rb.live ∨ ¬rb.hasClient
  · rw [if_pos hdry]
    exact Or.inl ⟨_, rfl, rfl⟩
  · rw [if_neg hdry]
    rcases call with error | _ | resp
    · exact Or.inr ⟨_, rfl, rfl⟩
    · exact Or.inr ⟨_, rfl, rfl⟩
    · cases resp with
      | obj text fields =>
        dsimp only
        split_ifs
        · exact Or.inr ⟨_, rfl, rfl⟩
        · exact Or.inl ⟨_, rfl, rfl⟩
      | null | bool | num | str | arr => exact Or.inr ⟨_, rfl, rfl⟩

theorem answerId_of_ne {resp : Json} (h : answerId resp ≠ "") :
    ∃ text fields, resp = .obj text fields := by
  have hnil : idText [] = "" := by decide
  cases resp with
  | obj text fields => exact ⟨text, fields, rfl⟩
  | null | bool | num | str | arr => exact absurd hnil h

/-- What a live placement answers, once the tool returned a record. -/
theorem place_obj {rb : RobinhoodSubmitter} (hlive : rb.live) (hclient : rb.hasClient)
    (order : Order) (uuid text : String) (fields : List (String × Json)) {id : String}
    (hid : id ≠ "") :
    (rb.place order uuid (.returned (.obj text fields))).1 = .ok id ↔ idText fields = id := by
  have hdry : ¬(¬rb.live ∨ ¬rb.hasClient) := not_or.mpr ⟨not_not.mpr hlive, not_not.mpr hclient⟩
  rw [RobinhoodSubmitter.place, if_neg hdry]
  dsimp only
  by_cases hempty : idText fields = ""
  · rw [if_pos hempty]
    refine iff_of_false (by rintro ⟨⟩) fun hc => hid (hc ▸ hempty)
  · rw [if_neg hempty]
    exact ⟨fun h => Except.ok.inj h, fun h => congrArg Except.ok h⟩

theorem placed_place_eq_some_iff {order : Order} {uuid : String} {call : PlaceCall} {k : OrderId}
    {id : String} :
    s.placed (.place order uuid call) = some (k, id) ↔
      (order.id = k ∧ order.id ∈ s.placing ∧ s.broker.live ∧ s.broker.hasClient ∧ id ≠ "") ∧
        ∃ resp, call = .returned resp ∧ answerId resp = id := by
  rcases call with error | _ | resp
  · exact iff_of_false (by rintro ⟨⟩) (by rintro ⟨-, _, ⟨⟩, -⟩)
  · exact iff_of_false (by rintro ⟨⟩) (by rintro ⟨-, _, ⟨⟩, -⟩)
  · rw [placed]
    split_ifs with h
    · constructor
      · intro hsome
        obtain ⟨rfl, rfl⟩ := Prod.mk.inj (Option.some.inj hsome)
        exact ⟨⟨rfl, h⟩, resp, rfl, rfl⟩
      · rintro ⟨⟨rfl, -⟩, resp', hresp, rfl⟩
        rw [PlaceCall.returned.inj hresp]
    · refine iff_of_false (by rintro ⟨⟩) ?_
      rintro ⟨⟨rfl, hk, hlive, hclient, hid⟩, resp', hresp, rfl⟩
      obtain rfl := PlaceCall.returned.inj hresp
      exact h ⟨hk, hlive, hclient, hid⟩

/-! ### The invariant -/

theorem Kept.initial (live hasClient : Bool) : (initial live hasClient).Kept where
  answered _ _ h := absurd h List.not_mem_nil
  claimed _ h := absurd h (Finset.notMem_empty _)
  apart _ h := absurd h (Finset.notMem_empty _)

theorem Kept.answer_of_get? (h : s.Kept) {k : OrderId} {id : String}
    (hk : s.broker.submitted.get? k = some id) (hplacing : k ∉ s.placing) :
    (s.answer k (.ok id)).Kept where
  answered k' id' hmem := by
    rcases List.mem_append.mp hmem with hmem | hmem
    · exact h.answered k' id' hmem
    · obtain ⟨rfl, rfl⟩ := Prod.mk.inj (List.mem_singleton.mp hmem)
      exact hk
  claimed := h.claimed
  apart k' hk' id' hmem := by
    rcases List.mem_append.mp hmem with hmem | hmem
    · exact h.apart k' hk' id' hmem
    · obtain ⟨rfl, rfl⟩ := Prod.mk.inj (List.mem_singleton.mp hmem)
      exact hplacing hk'

/-- A submission lets its claim go, and nothing else changes. -/
theorem Kept.conclude (h : s.Kept) {k : OrderId} (hk : k ∈ s.placing) {broker : RobinhoodSubmitter}
    (hothers : ∀ k', k' ≠ k → broker.submitted.get? k' = s.broker.submitted.get? k') :
    ({ s with broker, placing := s.placing.erase k } : SubmitDesk).Kept where
  answered k' id hmem := by
    have hne : k' ≠ k := by
      rintro rfl
      exact h.apart k' hk id hmem
    exact (hothers k' hne).trans (h.answered k' id hmem)
  claimed k' hk' :=
    (hothers k' (Finset.ne_of_mem_erase hk')).trans (h.claimed k' (Finset.mem_of_mem_erase hk'))
  apart k' hk' := h.apart k' (Finset.mem_of_mem_erase hk')

theorem Kept.claim (h : s.Kept) (order : Order) : (s.step (.claim order)).Kept := by
  rw [step]
  rcases hk : s.broker.submitted.get? order.id with _ | existing
  · rw [claim_of_none hk]
    -- the entry of the claim is new, so it overwrites neither an answer nor another claim
    have hne : ∀ k' id, (s.broker.submitted.get? k' = some id) → k' ≠ order.id := by
      rintro k' id hsome rfl
      exact Option.some_ne_none _ (hsome.symm.trans hk)
    refine ⟨fun k' id hmem => ?_, fun k' hk' => ?_, fun k' hk' id hmem => ?_⟩
    · have hsome := h.answered k' id hmem
      exact (Dict.get?_set_of_ne _ (hne k' id hsome) _).trans hsome
    · rcases Finset.mem_insert.mp hk' with rfl | hk'
      · exact Dict.get?_set_self _ _ _
      · have hsome := h.claimed k' hk'
        exact (Dict.get?_set_of_ne _ (hne k' _ hsome) _).trans hsome
    · rcases Finset.mem_insert.mp hk' with rfl | hk'
      · exact hne _ _ (h.answered _ _ hmem) rfl
      · exact h.apart k' hk' id hmem
  · rw [claim_of_some hk]
    dsimp only
    by_cases hflight : existing = RobinhoodSubmitter.INFLIGHT
    · rw [if_neg (not_not.mpr hflight)]
      exact h
    · rw [if_pos hflight]
      -- an entry that is not the mark of a claim is the identifier of a placed order
      refine h.answer_of_get? hk fun hplacing => hflight ?_
      exact Option.some.inj (hk.symm.trans (h.claimed _ hplacing))

theorem Kept.place (h : s.Kept) (order : Order) (uuid : String) (call : PlaceCall) :
    (s.step (.place order uuid call)).Kept := by
  rw [step]
  by_cases hk : order.id ∈ s.placing
  · rw [if_pos hk]
    dsimp only
    rcases place_spec s.broker order uuid call with ⟨id, hreply, hsubmitted⟩ |
      ⟨error, hreply, hsubmitted⟩
    · -- the mark becomes the identifier, and the order is placed no more
      rw [hreply]
      refine Kept.answer_of_get? (h.conclude hk fun k' hne => ?_) ?_ (Finset.notMem_erase _ _)
      · rw [hsubmitted]
        exact Dict.get?_set_of_ne _ hne _
      · exact (congrArg (·.get? order.id) hsubmitted).trans (Dict.get?_set_self _ _ _)
    · -- a failure takes the claim back
      rw [hreply]
      refine h.conclude hk fun k' hne => ?_
      rw [hsubmitted, Dict.get?_erase, if_neg hne]
  · rw [if_neg hk]
    exact h

theorem Kept.after (h : s.Kept) (a : SubmitStep) : (s.step a).Kept := by
  cases a with
  | claim order => exact h.claim order
  | place order uuid call => exact h.place order uuid call

/-! ### What a step reports -/

theorem reports_claim_iff (h : s.Kept) (order : Order) :
    s.Reports (.claim order) ↔ s.Readable (.claim order) := by
  have hreply : ∀ id, (order.id, id) ∈ s.answers → s.reply (.claim order) =
      some (if id ≠ RobinhoodSubmitter.INFLIGHT then .ok id else .error .unavailable) := by
    intro id hmem
    rw [reply, claim_of_some (h.answered _ _ hmem)]
  constructor
  · intro hr hmem
    -- an identifier that is the mark itself is not found again
    have hagain := hr.again order _ rfl hmem
    rw [hreply _ hmem, if_neg (not_not.mpr rfl)] at hagain
    cases hagain
  · intro hr
    refine ⟨by rintro k id ⟨⟩, fun _ _ => rfl, by rintro k id - id' ⟨⟩, ?_⟩
    intro order' id horder hmem
    obtain rfl := SubmitStep.claim.inj horder
    have hne : id ≠ RobinhoodSubmitter.INFLIGHT := by
      rintro rfl
      exact hr hmem
    rw [hreply id hmem, if_pos hne]

theorem reports_place_iff (h : s.Kept) (order : Order) (uuid : String) (call : PlaceCall) :
    s.Reports (.place order uuid call) ↔ s.Readable (.place order uuid call) := by
  constructor
  · intro hr hk hlive hclient resp hcall hid text fields hresp
    -- the order was placed, so the adapter must have read its identifier
    have hplaced : s.placed (.place order uuid call) = some (order.id, answerId resp) :=
      placed_place_eq_some_iff.mpr ⟨⟨rfl, hk, hlive, hclient, hid⟩, resp, hcall, rfl⟩
    have hreply := hr.returned _ _ hplaced
    rw [reply, if_pos hk, hcall, hresp] at hreply
    rw [hresp] at hid ⊢
    exact (place_obj hlive hclient order uuid text fields hid).mp (Option.some.inj hreply)
  · intro hr
    have hreturned : ∀ k id, s.placed (.place order uuid call) = some (k, id) →
        s.reply (.place order uuid call) = some (.ok id) := by
      intro k id hplaced
      obtain ⟨⟨-, hk, hlive, hclient, hid⟩, resp, rfl, rfl⟩ := placed_place_eq_some_iff.mp hplaced
      obtain ⟨text, fields, rfl⟩ := answerId_of_ne hid
      rw [reply, if_pos hk, (place_obj hlive hclient order uuid text fields hid).mpr
        (hr hk hlive hclient _ rfl hid text fields rfl)]
    refine ⟨hreturned, fun reason hreply => ?_, fun k id hmem id' hplaced => ?_,
      by rintro order' id ⟨⟩⟩
    · by_contra hplaced
      obtain ⟨⟨k, id⟩, hplaced⟩ := Option.ne_none_iff_exists'.mp hplaced
      rw [hreturned k id hplaced] at hreply
      cases hreply
    · obtain ⟨⟨rfl, hk, -⟩, -⟩ := placed_place_eq_some_iff.mp hplaced
      exact h.apart _ hk id hmem

theorem reports_iff (h : s.Kept) (a : SubmitStep) : s.Reports a ↔ s.Readable a := by
  cases a with
  | claim order => exact reports_claim_iff h order
  | place order uuid call => exact reports_place_iff h order uuid call

/-- The two parts of a submission, one after the other, are the submission. -/
theorem broker_run_submit {order : Order} (h : order.id ∉ s.placing) (uuid : String)
    (call : PlaceCall) :
    (run step s [.claim order, .place order uuid call]).broker =
      (s.broker.submitOrder order uuid call).2 := by
  rw [run_cons, run_cons, run_nil, RobinhoodSubmitter.submitOrder]
  rcases hk : s.broker.submitted.get? order.id with _ | existing
  · rw [claim_of_none hk, step, claim_of_none hk]
    dsimp only
    rw [step, if_pos (Finset.mem_insert_self _ _)]
    dsimp only
    rcases (s.broker.keep order.id RobinhoodSubmitter.INFLIGHT).place order uuid call with
      ⟨_ | _, _⟩ <;> rfl
  · rw [claim_of_some hk, step, claim_of_some hk]
    dsimp only
    have hlate : ∀ s' : SubmitDesk, s'.placing = s.placing →
        s'.step (.place order uuid call) = s' := fun s' hs' => if_neg (hs' ▸ h)
    split_ifs
    · change ((s.answer order.id (.ok existing)).step (.place order uuid call)).broker = s.broker
      rw [hlate (s.answer order.id (.ok existing)) rfl]
      rfl
    · exact congrArg SubmitDesk.broker (hlate s rfl)

/-- **When the adapter reports what happened**: for every way submissions of any orders take turns,
with every answer of the tool, every step reports what happened exactly if every answer that
carries an identifier can be read, and no order that is submitted again got the text of a claim as
its identifier. -/
theorem along_reports_iff (live hasClient : Bool) (steps : List SubmitStep) :
    Along step Reports (initial live hasClient) steps ↔
      Along step Readable (initial live hasClient) steps := by
  have hkept : ∀ s a, Kept s → Kept (step s a) := fun _ a h => h.after a
  have hiff : ∀ s a, Kept s → (Reports s a ↔ Readable s a) := fun _ a h => reports_iff h a
  exact along_congr_of_invariant hkept hiff (.initial live hasClient) steps

/-- The answer of the tool that placed an order, in its envelope. -/
def placedResponse : Json :=
  .obj "..." [("data", .obj "..." [("id", .str "rh-1"), ("state", .str "unconfirmed")]),
    ("guide", .str "...")]

/-- An order, and its submission. -/
def placedSteps : List SubmitStep :=
  [.claim (Oms.marketOrder 1 .buy 10),
    .place (Oms.marketOrder 1 .buy 10) "" (.returned placedResponse)]

/-- **A live order that is reported as rejected**: the tool places the order and says so in its
envelope, and the adapter raises a rejection. -/
theorem not_reports_envelope :
    (step (initial true true) placedSteps[0]).placed placedSteps[1] = some (1, "rh-1") ∧
      (∃ reason, (step (initial true true) placedSteps[0]).reply placedSteps[1] =
        some (.error (.rejection reason))) ∧
      ¬Along step Reports (initial true true) placedSteps := by
  have hreply : ∃ reason, (step (initial true true) placedSteps[0]).reply placedSteps[1] =
      some (.error (.rejection reason)) := ⟨_, rfl⟩
  have hplaced : (step (initial true true) placedSteps[0]).placed placedSteps[1] =
      some (1, "rh-1") := by
    decide +kernel
  refine ⟨hplaced, hreply, ?_⟩
  rintro ⟨-, hreports, -⟩
  obtain ⟨reason, hreply⟩ := hreply
  exact absurd ((hreports.rejected reason hreply).symm.trans hplaced) (by decide)

end SubmitDesk

end TradingPlatform
