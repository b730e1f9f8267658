import TradingPlatform.Execution.OmsStore
import TradingPlatform.Newest
import TradingPlatform.Text.DateTimeText

/-!
# The recent rejections of an agent

An agent is told which of its orders were rejected lately. The log of events knows the order of a
rejection, and the agent, the symbol and the side of the order only from the intent it was submitted
with. So the query joins the rejections with the intents, sorts by the texts of their timestamps,
cuts the list off at five rows for each one that is asked for, and picks out the agent's rows after
that.

Each of these steps can go wrong: an order that is submitted again gives its rejection another row,
the rejections of other agents can fill the list, and texts of timestamps compare as the times do
only within one zone. `TradingPlatform.newest_recentRejections_iff` says of which logs the query
returns, however many are asked for, the agent's newest rejections, each once
(`TradingPlatform.Reported`).
-/

namespace TradingPlatform

/-- A row of the log, with its timestamp as it is written. -/
structure StoredEvent where
  kind : EventKind
  orderId : OrderId
  ts : DateTime

/-- The intents that an order was submitted with. -/
def submittedIntents (log : List StoredEvent) (orderId : OrderId) : List OrderPayload :=
  log.filterMap fun event =>
    match event.kind with
    | .orderSubmitIntent payload => if event.orderId = orderId then some payload else none
    | _ => none

/-- A rejection, with an intent of its order. -/
structure RejectionRow where
  seq : ℕ
  ts : DateTime
  reason : Option String
  intent : OrderPayload

/-- The rows of a rejection, if its text is not before that of the cutoff. -/
def rejectionRows (log : List StoredEvent) (since : DateTime) (event : StoredEvent) (seq : ℕ) :
    List RejectionRow :=
  match event.kind with
  | .orderRejected reason =>
    if since.isoformat ≤ event.ts.isoformat then
      (submittedIntents log event.orderId).map fun intent => ⟨seq, event.ts, reason, intent⟩
    else []
  | _ => []

/-- The join of the rejections with the intents of their orders. -/
def joinRows (log : List StoredEvent) (since : DateTime) : List RejectionRow :=
  log.zipIdx.flatMap fun (event, seq) => rejectionRows log since event seq

/-- Whether a row is of an agent. -/
def RejectionRow.isOf (agentId : AgentId) (row : RejectionRow) : Bool :=
  row.intent.agentId = agentId

/-- The rows of an agent, from the joined rows in the order in which they are found: sorted by the
texts, cut off, picked out, and cut off again. -/
def recentRejectionRows (rows : List RejectionRow) (agentId : AgentId) (n : ℕ) :
    List RejectionRow :=
  (((rows.mergeSort fun a b => b.ts.isoformat ≤ a.ts.isoformat).take (5 * n)).filter
    (RejectionRow.isOf agentId)).take n

/-- What an agent is told of a rejection. -/
structure RejectionEntry where
  ts : List Char
  symbol : String
  side : String
  reason : String
  deriving DecidableEq

def RejectionRow.entry (row : RejectionRow) : RejectionEntry where
  ts := row.ts.isoformat.take 19
  symbol := row.intent.symbol
  side := row.intent.side.value
  reason := row.reason.getD "None"

/-- The source's `recent_rejections_by_agent`. -/
def recentRejectionsByAgent (rows : List RejectionRow) (agentId : AgentId) (n : ℕ) :
    List RejectionEntry :=
  (recentRejectionRows rows agentId n).map RejectionRow.entry

/-! ### What should be returned -/

def StoredEvent.isRejected (event : StoredEvent) : Bool :=
  match event.kind with
  | .orderRejected _ => true
  | _ => false

/-- The intents of an agent that an order was submitted with. -/
def agentIntents (log : List StoredEvent) (agentId : AgentId) (orderId : OrderId) :
    List OrderPayload :=
  (submittedIntents log orderId).filter fun intent => intent.agentId = agentId

/-- An event is a rejection of an order that the agent submitted. -/
def RejectionOf (log : List StoredEvent) (agentId : AgentId) (event : StoredEvent) : Prop :=
  event.isRejected = true ∧ agentIntents log agentId event.orderId ≠ []

instance (log : List StoredEvent) (agentId : AgentId) (event : StoredEvent) :
    Decidable (RejectionOf log agentId event) :=
  inferInstanceAs (Decidable (_ ∧ ¬_))

/-- The rejections of an agent that are not before the cutoff: their places in the log, and their
times. -/
def agentRejections (log : List StoredEvent) (agentId : AgentId) (since : DateTime) :
    List (ℕ × DateTime) :=
  (log.zipIdx.filter fun e =>
    RejectionOf log agentId e.1 ∧ since.instant ≤ e.1.ts.instant).map fun e => (e.2, e.1.ts)

/-- The rejection of a row: its place and its time. -/
def RejectionRow.rejection (row : RejectionRow) : ℕ × DateTime := (row.seq, row.ts)

/-- **The rows are the agent's newest rejections**, each once, however many are asked for and in
whatever order the joined rows are found. -/
def Complete (log : List StoredEvent) (agentId : AgentId) (since : DateTime) : Prop :=
  ∀ (n : ℕ) (rows : List RejectionRow), rows.Perm (joinRows log since) →
    Newest (fun r : ℕ × DateTime => r.2.instant) n (agentRejections log agentId since)
      ((recentRejectionRows rows agentId n).map RejectionRow.rejection)

/-- **What the query takes for granted of a log.** -/
structure Reported (log : List StoredEvent) (agentId : AgentId) (since : DateTime) : Prop where
  /-- The agent submitted no rejected order twice. -/
  once : ∀ event ∈ log, event.isRejected = true → since.isoformat ≤ event.ts.isoformat →
    (agentIntents log agentId event.orderId).length ≤ 1
  /-- The texts compare with the cutoff as the times do. -/
  window : ∀ event ∈ log, RejectionOf log agentId event →
    (since.isoformat ≤ event.ts.isoformat ↔ since.instant ≤ event.ts.instant)
  /-- The texts compare with each other as the times do. -/
  order : ∀ event ∈ log, ∀ event' ∈ log, RejectionOf log agentId event →
    RejectionOf log agentId event' → since.isoformat ≤ event.ts.isoformat →
      event.ts.isoformat < event'.ts.isoformat → event.ts.instant ≤ event'.ts.instant
  /-- The rows of the other agents do not fill the list. -/
  room : Room (fun row : RejectionRow => row.ts.isoformat) (RejectionRow.isOf agentId) 4
    (joinRows log since)

/-! ### The joined rows -/

section Rows

variable {log : List StoredEvent} {agentId : AgentId} {since : DateTime}

theorem rejectionRows_of_kind {event : StoredEvent} {reason : Option String}
    (h : event.kind = .orderRejected reason) (seq : ℕ) :
    rejectionRows log since event seq =
      if since.isoformat ≤ event.ts.isoformat then
        (submittedIntents log event.orderId).map fun intent => ⟨seq, event.ts, reason, intent⟩
      else [] := by
  rw [rejectionRows, h]

theorem rejectionRows_of_not {event : StoredEvent} (h : event.isRejected ≠ true) (seq : ℕ) :
    rejectionRows log since event seq = [] := by
  rw [StoredEvent.isRejected] at h
  rw [rejectionRows]
  split
  · simp_all
  · rfl

theorem exists_kind_of_isRejected {event : StoredEvent} (h : event.isRejected = true) :
    ∃ reason, event.kind = .orderRejected reason := by
  rw [StoredEvent.isRejected] at h
  split at h
  · exact ⟨_, ‹_›⟩
  · exact absurd h Bool.false_ne_true

/-- The agent's rows of an event: as many as it has intents, if it is a rejection that is found. -/
theorem map_rejection_filter (event : StoredEvent) (seq : ℕ) :
    ((rejectionRows log since event seq).filter (RejectionRow.isOf agentId)).map
        RejectionRow.rejection =
      List.replicate (if event.isRejected = true ∧ since.isoformat ≤ event.ts.isoformat then
        (agentIntents log agentId event.orderId).length else 0) (seq, event.ts) := by
  by_cases hrejected : event.isRejected = true
  · obtain ⟨reason, hreason⟩ := exists_kind_of_isRejected hrejected
    rw [rejectionRows_of_kind hreason]
    by_cases hin : since.isoformat ≤ event.ts.isoformat
    · rw [if_pos hin, if_pos ⟨hrejected, hin⟩, List.filter_map, List.map_map]
      show ((agentIntents log agentId event.orderId).map fun _ => (seq, event.ts)) = _
      rw [List.map_const']
    · rw [if_neg hin, if_neg fun hc => hin hc.2]
      rfl
  · rw [rejectionRows_of_not hrejected, if_neg fun hc => hrejected hc.1]
    rfl

/-- The rejections of the agent's rows, event by event. -/
theorem map_rejection_joinRows :
    ((joinRows log since).filter (RejectionRow.isOf agentId)).map RejectionRow.rejection =
      log.zipIdx.flatMap fun e =>
        List.replicate (if e.1.isRejected = true ∧ since.isoformat ≤ e.1.ts.isoformat then
          (agentIntents log agentId e.1.orderId).length else 0) (e.2, e.1.ts) := by
  rw [joinRows, List.filter_flatMap, List.map_flatMap]
  congr 1
  funext e
  exact map_rejection_filter e.1 e.2

/-- The rejections of the agent's rows. -/
theorem mem_rejections {seq : ℕ} {ts : DateTime} :
    (seq, ts) ∈ ((joinRows log since).filter (RejectionRow.isOf agentId)).map
        RejectionRow.rejection ↔
      ∃ event, log[seq]? = some event ∧ ts = event.ts ∧ RejectionOf log agentId event ∧
        since.isoformat ≤ event.ts.isoformat := by
  rw [map_rejection_joinRows, List.mem_flatMap]
  constructor
  · rintro ⟨⟨event, i⟩, hmem, hrow⟩
    obtain ⟨hne, heq⟩ := List.mem_replicate.mp hrow
    obtain ⟨rfl, rfl⟩ := Prod.mk.inj heq
    split_ifs at hne with hfound
    · exact ⟨event, List.mk_mem_zipIdx_iff_getElem?.mp hmem, rfl,
        ⟨hfound.1, List.length_pos_iff.mp (Nat.pos_of_ne_zero hne)⟩, hfound.2⟩
    · exact absurd rfl hne
  · rintro ⟨event, hevent, rfl, ⟨hrejected, hintents⟩, hin⟩
    refine ⟨(event, seq), List.mk_mem_zipIdx_iff_getElem?.mpr hevent, List.mem_replicate.mpr
      ⟨?_, rfl⟩⟩
    rw [if_pos ⟨hrejected, hin⟩]
    exact (List.length_pos_of_ne_nil hintents).ne'

theorem mem_agentRejections {seq : ℕ} {ts : DateTime} :
    (seq, ts) ∈ agentRejections log agentId since ↔
      ∃ event, log[seq]? = some event ∧ ts = event.ts ∧ RejectionOf log agentId event ∧
        since.instant ≤ event.ts.instant := by
  rw [agentRejections, List.mem_map]
  constructor
  · rintro ⟨⟨event, i⟩, hmem, heq⟩
    obtain ⟨rfl, rfl⟩ := Prod.mk.inj heq
    obtain ⟨hzip, hof⟩ := List.mem_filter.mp hmem
    obtain ⟨hof, hin⟩ := of_decide_eq_true hof
    exact ⟨event, List.mk_mem_zipIdx_iff_getElem?.mp hzip, rfl, hof, hin⟩
  · rintro ⟨event, hevent, rfl, hof, hin⟩
    exact ⟨(event, seq), List.mem_filter.mpr ⟨List.mk_mem_zipIdx_iff_getElem?.mpr hevent,
      decide_eq_true ⟨hof, hin⟩⟩, rfl⟩

theorem pairwise_zipIdx (log : List StoredEvent) :
    log.zipIdx.Pairwise fun e e' => e.2 ≠ e'.2 := by
  refine List.pairwise_map.mp ?_
  rw [List.zipIdx_map_snd]
  exact List.nodup_range' _

theorem nodup_agentRejections : (agentRejections log agentId since).Nodup := by
  refine List.pairwise_map.mpr (((pairwise_zipIdx log).filter _).imp fun hne heq => ?_)
  exact hne (Prod.mk.inj heq).1

/-- The rejections of the agent's rows are different if no order was submitted twice. -/
theorem nodup_rejections_iff :
    (((joinRows log since).filter (RejectionRow.isOf agentId)).map
        RejectionRow.rejection).Nodup ↔
      ∀ event ∈ log, event.isRejected = true → since.isoformat ≤ event.ts.isoformat →
        (agentIntents log agentId event.orderId).length ≤ 1 := by
  have hdisjoint : log.zipIdx.Pairwise (Function.onFun List.Disjoint fun e =>
      List.replicate (if e.1.isRejected = true ∧ since.isoformat ≤ e.1.ts.isoformat then
        (agentIntents log agentId e.1.orderId).length else 0) (e.2, e.1.ts)) := by
    refine (pairwise_zipIdx log).imp fun hne r hr hr' => ?_
    have heq := (List.eq_of_mem_replicate hr).symm.trans (List.eq_of_mem_replicate hr')
    exact hne (Prod.mk.inj heq).1
  rw [map_rejection_joinRows, List.nodup_flatMap, and_iff_left hdisjoint]
  constructor
  · intro h event hevent hrejected hin
    obtain ⟨i, hi⟩ := List.getElem?_of_mem hevent
    have hrows := h (event, i) (List.mk_mem_zipIdx_iff_getElem?.mpr hi)
    rwa [List.nodup_replicate, if_pos ⟨hrejected, hin⟩] at hrows
  · rintro h ⟨event, i⟩ hmem
    rw [List.nodup_replicate]
    split_ifs with hfound
    · exact h event (List.mem_of_getElem? (List.mk_mem_zipIdx_iff_getElem?.mp hmem)) hfound.1
        hfound.2
    · exact Nat.zero_le 1

end Rows

/-! ### When the query returns what it should -/

section Query

variable {log : List StoredEvent} {agentId : AgentId} {since : DateTime}

/-- **It does so if what it takes for granted is the case.** -/
theorem complete_of_reported (h : Reported log agentId since) : Complete log agentId since := by
  intro n rows hrows
  have hperm := (List.mergeSort_perm rows fun a b => b.ts.isoformat ≤ a.ts.isoformat).trans hrows
  have hsorted := newestFirst_mergeSort (fun row : RejectionRow => row.ts.isoformat) rows
  have hfound : recentRejectionRows rows agentId n =
      ((rows.mergeSort fun a b => b.ts.isoformat ≤ a.ts.isoformat).filter
        (RejectionRow.isOf agentId)).take n := take_filter_take h.room hperm hsorted n
  rw [hfound, List.map_take]
  refine ⟨_, ?_, ?_, rfl⟩
  · have hmap := (hperm.filter (RejectionRow.isOf agentId)).map RejectionRow.rejection
    refine hmap.trans ((List.perm_ext_iff_of_nodup (nodup_rejections_iff.mpr h.once)
      nodup_agentRejections).mpr fun e => ?_)
    rw [mem_rejections, mem_agentRejections]
    refine exists_congr fun event => and_congr_right fun hevent => and_congr_right fun _ =>
      and_congr_right fun hof => h.window event (List.mem_of_getElem? hevent) hof
  · refine List.pairwise_map.mpr ((hsorted.filter _).imp_of_mem fun {a b} ha hb hle => ?_)
    have hrejection : ∀ row ∈ (rows.mergeSort fun a b => b.ts.isoformat ≤ a.ts.isoformat).filter
        (RejectionRow.isOf agentId), ∃ event, log[row.seq]? = some event ∧ row.ts = event.ts ∧
          RejectionOf log agentId event ∧ since.isoformat ≤ event.ts.isoformat := by
      intro row hrow
      exact mem_rejections.mp (List.mem_map_of_mem (f := RejectionRow.rejection)
        ((hperm.filter _).subset hrow))
    obtain ⟨event, hevent, hts, hof, -⟩ := hrejection a ha
    obtain ⟨event', hevent', hts', hof', hin⟩ := hrejection b hb
    show b.ts.instant ≤ a.ts.instant
    rcases lt_or_eq_of_le (show b.ts.isoformat ≤ a.ts.isoformat from hle) with hlt | heq
    · rw [hts, hts'] at hlt ⊢
      exact h.order event' (List.mem_of_getElem? hevent') event (List.mem_of_getElem? hevent) hof'
        hof hin hlt
    · exact (instant_eq_of_isoformat_eq heq).le

/-- All of the agent's rows, if enough are asked for. -/
theorem recentRejectionRows_of_length_le {rows : List RejectionRow} {n : ℕ}
    (hn : rows.length ≤ n) :
    recentRejectionRows rows agentId n =
      (rows.mergeSort fun a b => b.ts.isoformat ≤ a.ts.isoformat).filter
        (RejectionRow.isOf agentId) := by
  have hlen : (rows.mergeSort fun a b => b.ts.isoformat ≤ a.ts.isoformat).length = rows.length :=
    List.length_mergeSort rows
  have hfilter := List.length_filter_le (RejectionRow.isOf agentId)
    (rows.mergeSort fun a b => b.ts.isoformat ≤ a.ts.isoformat)
  rw [recentRejectionRows, List.take_of_length_le (by omega : _ ≤ 5 * n),
    List.take_of_length_le (by omega)]

/-- **It does so only then.** -/
theorem reported_of_complete (h : Complete log agentId since) : Reported log agentId since := by
  -- what is returned if every row is asked for
  have hall := h ((joinRows log since).length + (agentRejections log agentId since).length)
    (joinRows log since) (.refl _)
  rw [recentRejectionRows_of_length_le (Nat.le_add_right _ _)] at hall
  obtain ⟨hreturned, hnewest⟩ := hall.perm (Nat.le_add_left _ _)
  have hsort := List.mergeSort_perm (joinRows log since)
    fun a b => b.ts.isoformat ≤ a.ts.isoformat
  have hrows := ((hsort.filter (RejectionRow.isOf agentId)).map RejectionRow.rejection).symm.trans
    hreturned
  refine ⟨nodup_rejections_iff.mp (hrows.nodup_iff.mpr nodup_agentRejections), ?_, ?_, ?_⟩
  · intro event hevent hof
    obtain ⟨i, hi⟩ := List.getElem?_of_mem hevent
    have hmem := hrows.mem_iff (a := (i, event.ts))
    rw [mem_rejections, mem_agentRejections] at hmem
    constructor
    · intro hin
      obtain ⟨event', hevent', -, -, hin'⟩ := hmem.mp ⟨event, hi, rfl, hof, hin⟩
      obtain rfl := Option.some.inj (hi.symm.trans hevent')
      exact hin'
    · intro hin
      obtain ⟨event', hevent', -, -, hin'⟩ := hmem.mpr ⟨event, hi, rfl, hof, hin⟩
      obtain rfl := Option.some.inj (hi.symm.trans hevent')
      exact hin'
  · intro event hevent event' hevent' hof hof' hin hlt
    obtain ⟨i, hi⟩ := List.getElem?_of_mem hevent
    obtain ⟨j, hj⟩ := List.getElem?_of_mem hevent'
    have hmem := mem_rejections.mpr ⟨event, hi, rfl, hof, hin⟩
    have hmem' := mem_rejections.mpr ⟨event', hj, rfl, hof', hin.trans hlt.le⟩
    rw [hrows.mem_iff, ← hreturned.mem_iff] at hmem hmem'
    obtain ⟨row, hrow, heq⟩ := List.mem_map.mp hmem
    obtain ⟨row', hrow', heq'⟩ := List.mem_map.mp hmem'
    have hts : row.ts = event.ts := (Prod.mk.inj heq).2
    have hts' : row'.ts = event'.ts := (Prod.mk.inj heq').2
    have htexts : NewestFirst (fun row : RejectionRow => row.ts.isoformat) _ :=
      (newestFirst_mergeSort (fun row : RejectionRow => row.ts.isoformat)
        (joinRows log since)).filter (RejectionRow.isOf agentId)
    have htimes : NewestFirst (fun row : RejectionRow => row.ts.instant) _ :=
      List.pairwise_map.mp hnewest
    rw [← hts, ← hts'] at hlt ⊢
    exact NewestFirst.le_of_lt htexts htimes hrow hrow' hlt
  · by_contra hroom
    obtain ⟨l, hperm, hsorted, n, hn, hshort⟩ := exists_length_lt hroom
    have hsame : (l.mergeSort fun a b => b.ts.isoformat ≤ a.ts.isoformat) = l :=
      List.mergeSort_of_pairwise (hsorted.imp fun hle => decide_eq_true hle)
    have hlen := (h n l hperm).length_eq
    have htotal : (agentRejections log agentId since).length =
        (joinRows log since).countP (RejectionRow.isOf agentId) := by
      rw [← hrows.length_eq, List.length_map, List.countP_eq_length_filter]
    have hle : (recentRejectionRows l agentId n).length ≤
        ((l.take (5 * n)).filter (RejectionRow.isOf agentId)).length := by
      rw [recentRejectionRows, hsame]
      exact List.length_take_le' n _
    rw [List.length_map] at hlen
    have hshort' : ((l.take (5 * n)).filter (RejectionRow.isOf agentId)).length < n := hshort
    omega

/-- **When the query returns what it should**, however many rows are asked for. -/
theorem newest_recentRejections_iff (log : List StoredEvent) (agentId : AgentId)
    (since : DateTime) : Complete log agentId since ↔ Reported log agentId since :=
  ⟨reported_of_complete, complete_of_reported⟩

end Query

/-! ### A rejected order that was submitted twice -/

theorem valid_halfPastTwo : (14 < 24 ∧ 30 < 60) ∧ 0 < 60 ∧ 0 < 1000000 := by decide

def rejectedAt : DateTime := .utc ⟨2026, 5, 4, by decide⟩ ⟨14, 30, 0, 0, valid_halfPastTwo⟩

/-- An intent to buy, in the log. -/
def buyIntent (agentId : AgentId) (orderId : OrderId) : StoredEvent where
  kind := .orderSubmitIntent ⟨orderId, orderId, agentId, "SPY", .buy, 10, .market, .simple, .day,
    .pending, 0, none, none, false⟩
  orderId := orderId
  ts := rejectedAt

def rejectionEvent (orderId : OrderId) : StoredEvent where
  kind := .orderRejected (some "insufficient buying power")
  orderId := orderId
  ts := rejectedAt

/-- **One rejection is told twice**: the broker was not there at the first attempt, and the second
one was rejected. -/
theorem not_forall_newest_recentRejections :
    ¬∀ (log : List StoredEvent) (agentId : AgentId) (since : DateTime) (n : ℕ)
      (rows : List RejectionRow), rows.Perm (joinRows log since) →
        Newest (fun r : ℕ × DateTime => r.2.instant) n (agentRejections log agentId since)
          ((recentRejectionRows rows agentId n).map RejectionRow.rejection) := by
  intro h
  have hreported : Reported [buyIntent .haiku 1, buyIntent .haiku 1, rejectionEvent 1] .haiku
      rejectedAt := reported_of_complete fun n rows hrows => h _ _ _ n rows hrows
  have honce := hreported.once (rejectionEvent 1) (by simp) rfl le_rfl
  exact absurd honce (by decide)

end TradingPlatform
