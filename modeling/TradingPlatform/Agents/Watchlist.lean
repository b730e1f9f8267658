import TradingPlatform.Agents.ExternalContent
import TradingPlatform.Agents.ParseIntents
import TradingPlatform.Recency
import TradingPlatform.Run

/-!
# The watchlist of Opus

In a daily check Opus may name stocks that are to be watched. They are kept as one text in its
memory, with commas between them, and read back from it for the next prompt, for the fingerprint
and for the choice of the next deep dive: what is new goes in front, what is named again moves to
the front, and what is beyond the twentieth is dropped.

A check may fail at any point. The names of an answer are written once its intents have been read,
and in one piece, so an answer counts in full or not at all
(`TradingPlatform.OpusAgent.named`). A check that finds the text of some names in the memory leaves
there the text of its own names in front of them
(`TradingPlatform.OpusAgent.watchlistAfter_written`), and such a text reads back as the names that
are most recent (`TradingPlatform.OpusAgent.getWatchlist_written`).

Only a name with a comma does not read back: it comes back as two. That there is none is not
checked, and it is just what is needed (`TradingPlatform.OpusAgent.watchlist_run`).
-/

namespace TradingPlatform

/-- What is relied on of the upper case of a text: it is in upper case itself, it has no white space
at its ends if the text has none, and it has nothing in it, or no comma, if the text has not. -/
structure UpperCase (tables : UnicodeTables) (upper : Str → Str) : Prop where
  upper_upper : ∀ s, upper (upper s) = upper s
  strip_upper : ∀ s, Str.strip tables s = s → Str.strip tables (upper s) = upper s
  upper_nil : upper [] = []
  comma_mem : ∀ s, .scalar ',' ∈ upper s → .scalar ',' ∈ s

/-! ### Texts -/

section Strip

variable {α : Type*} (p : α → Bool) (l : List α)

/-- What is dropped at the end leaves the beginning alone. -/
theorem dropWhile_rdropWhile_dropWhile :
    ((l.dropWhile p).rdropWhile p).dropWhile p = (l.dropWhile p).rdropWhile p := by
  have hself := List.dropWhile_eq_self_iff.mp (List.dropWhile_idempotent p l)
  rw [List.dropWhile_eq_self_iff]
  intro hpos
  have hpre : (l.dropWhile p).rdropWhile p <+: l.dropWhile p := List.rdropWhile_prefix p _
  rw [hpre.getElem hpos]
  exact hself (hpos.trans_le hpre.length_le)

theorem rdropWhile_dropWhile_idem :
    (((l.dropWhile p).rdropWhile p).dropWhile p).rdropWhile p = (l.dropWhile p).rdropWhile p := by
  rw [dropWhile_rdropWhile_dropWhile, List.rdropWhile_idempotent]

theorem rdropWhile_dropWhile_subset : (l.dropWhile p).rdropWhile p ⊆ l := by
  intro a ha
  exact (List.dropWhile_suffix p).subset ((List.rdropWhile_prefix p _).subset ha)

end Strip

/-- A text that is stripped has nothing left to strip. -/
theorem Str.strip_strip (tables : UnicodeTables) (s : Str) :
    Str.strip tables (Str.strip tables s) = Str.strip tables s :=
  rdropWhile_dropWhile_idem _ s

theorem Str.strip_subset {tables : UnicodeTables} (s : Str) : Str.strip tables s ⊆ s :=
  rdropWhile_dropWhile_subset _ s

/-- The parts of a list have nothing left that it was split at. -/
theorem not_mem_of_mem_splitOn {α : Type*} [DecidableEq α] {a : α} {l part : List α}
    (h : part ∈ l.splitOn a) : a ∉ part := by
  induction l generalizing part with
  | nil =>
    obtain rfl : part = [] := by simpa using h
    exact List.not_mem_nil
  | cons x l ih =>
    obtain ⟨head, parts, hsplit⟩ := List.exists_cons_of_ne_nil (List.splitOn_ne_nil a l)
    rw [hsplit] at ih
    rw [List.splitOn_cons_eq_if_modifyHead, hsplit] at h
    by_cases hx : x = a
    · rw [if_pos (beq_iff_eq.mpr hx)] at h
      rcases List.mem_cons.mp h with rfl | h
      · exact List.not_mem_nil
      · exact ih h
    · rw [if_neg (by simpa using hx), List.modifyHead_cons] at h
      rcases List.mem_cons.mp h with rfl | h
      · rw [List.mem_cons, not_or]
        exact ⟨Ne.symm hx, ih List.mem_cons_self⟩
      · exact ih (List.mem_cons_of_mem head h)

/-- A text without a half of a surrogate pair. -/
theorem Str.isSome_toText?_iff {s : Str} :
    s.toText?.isSome = true ↔ ∀ c ∈ s, ∃ x, c = .scalar x := by
  induction s with
  | nil => simp [Str.toText?]
  | cons c s ih =>
    cases c with
    | scalar x => simp [Str.toText?, ih]
    | high bits => simp [Str.toText?]
    | low bits => simp [Str.toText?]

/-- A text that is joined of others, with a character between them. -/
theorem Str.isSome_toText?_intercalate (x : Char) (parts : List Str) :
    (Str.toText? (List.intercalate [.scalar x] parts)).isSome = true ↔
      ∀ part ∈ parts, part.toText?.isSome = true := by
  induction parts with
  | nil => simp [Str.toText?]
  | cons part parts ih =>
    rcases parts with _ | ⟨next, parts⟩
    · simp
    · rw [List.intercalate_cons_cons, List.forall_mem_cons, ← ih]
      simp only [Str.isSome_toText?_iff, List.forall_mem_append, List.mem_singleton,
        forall_eq, CodePoint.scalar.injEq, exists_eq', and_true]

namespace OpusAgent

def watchlistMax : ℕ := 20

/-! ### The text -/

section Names

variable (tables : UnicodeTables) (upper : Str → Str)

/-- The source's `strip` and `upper` of a name. -/
def tidyName (name : Str) : Str := upper (Str.strip tables name)

/-- The source's `get_watchlist`, from what is in the memory. -/
def getWatchlist (stored : Option Str) : List Str :=
  (((stored.getD []).splitOn (.scalar ',')).map (tidyName tables upper)).filter (· ≠ [])

/-- The text of the names that are most recent. -/
def written (names : List Str) : Option Str :=
  if names = [] then none
  else some (List.intercalate [.scalar ','] (mostRecent watchlistMax names))

/-- A name that reads back as it was written. -/
structure Readable (name : Str) : Prop where
  tidy : tidyName tables upper name = name
  ne_nil : name ≠ []
  no_comma : .scalar ',' ∉ name

variable {tables upper}

theorem tidyName_tidyName (hupper : UpperCase tables upper) (name : Str) :
    tidyName tables upper (tidyName tables upper name) = tidyName tables upper name := by
  rw [tidyName, tidyName, hupper.strip_upper _ (Str.strip_strip tables name), hupper.upper_upper]

/-- **The text reads back** as the names. -/
theorem getWatchlist_written (hupper : UpperCase tables upper) {names : List Str}
    (hread : ∀ name ∈ mostRecent watchlistMax names, Readable tables upper name) :
    getWatchlist tables upper (written names) = mostRecent watchlistMax names := by
  by_cases hnil : names = []
  · subst hnil
    simp [getWatchlist, written, mostRecent, firstOccurrences, tidyName, Str.strip,
      hupper.upper_nil]
  · obtain ⟨name, names, rfl⟩ := List.exists_cons_of_ne_nil hnil
    have hne : mostRecent watchlistMax (name :: names) ≠ [] :=
      List.ne_nil_of_mem (mem_mostRecent.mpr ⟨[], names, rfl, by simp, by decide⟩)
    have htidy : (mostRecent watchlistMax (name :: names)).map (tidyName tables upper) =
        mostRecent watchlistMax (name :: names) :=
      (List.map_congr_left fun name hname => (hread name hname).tidy).trans (List.map_id _)
    rw [getWatchlist, written, if_neg hnil, Option.getD_some,
      List.splitOn_intercalate _ (fun name hname => (hread name hname).no_comma) hne, htidy,
      List.filter_eq_self]
    intro name hname
    exact decide_eq_true (hread name hname).ne_nil

/-- What is read has no comma. -/
theorem not_mem_of_mem_getWatchlist (hupper : UpperCase tables upper) {stored : Option Str}
    {name : Str} (h : name ∈ getWatchlist tables upper stored) : .scalar ',' ∉ name := by
  obtain ⟨hmap, -⟩ := List.mem_filter.mp h
  obtain ⟨part, hpart, rfl⟩ := List.mem_map.mp hmap
  intro hcomma
  exact not_mem_of_mem_splitOn hpart (Str.strip_subset _ (hupper.comma_mem _ hcomma))

end Names

/-! ### The source -/

section Source

variable {F : Type} (rt : PyRuntime F) (upper : Str → Str)

/-- The names that an answer adds. -/
def watchlistAdds (answer : List Char) : Except PyError (List Str) := do
  match ← ((readJson rt answer).getD (.obj [])).get "watchlist_add" .null with
  | .arr items =>
    .ok ((items.map fun item => tidyName rt.tables upper (item.pyStr rt)).filter (· ≠ []))
  -- not a list: there is nothing to add
  | _ => .ok []

/-- The source's `remember`. The database takes no half of a surrogate pair. -/
def remember (value : Str) : Except PyError (Option Str) :=
  if (Str.toText? value).isSome = true then .ok (some value) else .error .value

/-- The source's `_merge_watchlist_from_response`: what is in the memory afterwards. -/
def mergeWatchlistFromResponse (stored : Option Str) (answer : List Char) :
    Except PyError (Option Str) := do
  let cleaned ← watchlistAdds rt upper answer
  if cleaned = [] then .ok stored
  else
    let merged := mostRecent watchlistMax (cleaned ++ getWatchlist rt.tables upper stored)
    remember (List.intercalate [.scalar ','] merged)

end Source

end OpusAgent

/-- A daily check: how many positions Opus holds, and the answer of the model, unless the check is
skipped or the call fails. -/
structure DailyCheck where
  positions : ℕ
  timestamp : DateTime
  answer : Option (List Char)

namespace OpusAgent

section Checks

variable {F : Type} (rt : PyRuntime F) (upper : Str → Str)

def dailyMode (positions : ℕ) : Mode :=
  if positions < targetHoldings then .initiation else .management

/-- The source's `observe`, as far as it has to do with the watchlist: what is in the memory
afterwards. -/
def watchlistAfter (stored : Option Str) (check : DailyCheck) : Option Str :=
  match check.answer with
  | none => stored
  | some answer =>
    match parseDailyIntents rt (dailyMode check.positions) check.positions check.timestamp answer,
      mergeWatchlistFromResponse rt upper stored answer with
    | .ok _, .ok stored' => stored'
    -- the dispatcher logs what is raised
    | _, _ => stored

/-- The names that a check puts on the watchlist: those of its answer, if the intents of the answer
can be read and the names can be written. -/
def named (check : DailyCheck) : List Str :=
  match check.answer with
  | none => []
  | some answer =>
    match parseDailyIntents rt (dailyMode check.positions) check.positions check.timestamp answer,
      watchlistAdds rt upper answer with
    | .ok _, .ok names =>
      if ∀ name ∈ mostRecent watchlistMax names, name.toText?.isSome = true then names else []
    | _, _ => []

end Checks

section Steps

variable {F : Type} {rt : PyRuntime F} {upper : Str → Str}

theorem watchlistAdds_tidy (hupper : UpperCase rt.tables upper) {answer : List Char}
    {names : List Str} (h : watchlistAdds rt upper answer = .ok names) {name : Str}
    (hname : name ∈ names) : tidyName rt.tables upper name = name ∧ name ≠ [] := by
  rw [watchlistAdds] at h
  rcases hget : ((readJson rt answer).getD (.obj [])).get "watchlist_add" .null with e | adds
  · rw [hget] at h
    cases h
  rw [hget] at h
  cases adds with
  | arr items =>
    obtain rfl := Except.ok.inj h
    obtain ⟨hmap, hne⟩ := List.mem_filter.mp hname
    obtain ⟨item, -, rfl⟩ := List.mem_map.mp hmap
    exact ⟨tidyName_tidyName hupper _, of_decide_eq_true hne⟩
  | _ =>
    obtain rfl := Except.ok.inj h
    cases hname

/-- The names of a check are those of its answer, and can be written, or there are none. -/
theorem named_cases (check : DailyCheck) :
    named rt upper check = [] ∨ ∃ answer, watchlistAdds rt upper answer =
        .ok (named rt upper check) ∧
      ∀ name ∈ mostRecent watchlistMax (named rt upper check), name.toText?.isSome = true := by
  unfold named
  split
  · exact .inl rfl
  · split
    · split_ifs with hwrite
      · exact .inr ⟨_, by assumption, hwrite⟩
      · exact .inl rfl
    · exact .inl rfl

theorem isSome_toText?_named {check : DailyCheck} {name : Str}
    (h : name ∈ mostRecent watchlistMax (named rt upper check)) : name.toText?.isSome = true := by
  obtain hnil | ⟨answer, -, hwrite⟩ := @named_cases _ rt upper check
  · rw [hnil] at h
    exact absurd (mem_of_mem_mostRecent h) List.not_mem_nil
  · exact hwrite name h

theorem named_tidy (hupper : UpperCase rt.tables upper) {check : DailyCheck} {name : Str}
    (h : name ∈ named rt upper check) : tidyName rt.tables upper name = name ∧ name ≠ [] := by
  obtain hnil | ⟨answer, hadds, -⟩ := @named_cases _ rt upper check
  · rw [hnil] at h
    cases h
  · exact watchlistAdds_tidy hupper hadds h

variable {names : List Str}

/-- The names of an answer, merged into the text of others. -/
theorem mergeWatchlistFromResponse_written (hupper : UpperCase rt.tables upper)
    (hread : ∀ name ∈ mostRecent watchlistMax names, Readable rt.tables upper name)
    (hwrite : ∀ name ∈ mostRecent watchlistMax names, name.toText?.isSome = true)
    {answer : List Char} {cleaned : List Str}
    (hadds : watchlistAdds rt upper answer = .ok cleaned) :
    mergeWatchlistFromResponse rt upper (written names) answer =
      if ∀ name ∈ mostRecent watchlistMax cleaned, name.toText?.isSome = true then
        .ok (written (cleaned ++ names))
      else .error .value := by
  have hmerged : mostRecent watchlistMax
      (cleaned ++ getWatchlist rt.tables upper (written names)) =
        mostRecent watchlistMax (cleaned ++ names) := by
    rw [getWatchlist_written hupper hread, mostRecent_append_mostRecent]
  rw [mergeWatchlistFromResponse, hadds]
  change (if cleaned = [] then Except.ok (written names) else remember _) = _
  by_cases hnil : cleaned = []
  · subst hnil
    rw [if_pos rfl, if_pos fun name h => absurd (mem_of_mem_mostRecent h) List.not_mem_nil]
    rfl
  · -- what was there can be written, so it is up to the new names
    have hiff : (Str.toText? (List.intercalate [.scalar ',']
        (mostRecent watchlistMax (cleaned ++ names)))).isSome = true ↔
          ∀ name ∈ mostRecent watchlistMax cleaned, name.toText?.isSome = true := by
      rw [Str.isSome_toText?_intercalate]
      constructor
      · intro h name hname
        exact h name (mostRecent_subset_append _ _ _ hname)
      · intro h name hname
        exact (mem_mostRecent_append hname).elim (h name) (hwrite name)
    rw [if_neg hnil, hmerged, remember, if_congr hiff rfl rfl, written,
      if_neg fun h => hnil (List.append_eq_nil_iff.mp h).1]

/-- **A check puts its names in front** of those that are in the memory. -/
theorem watchlistAfter_written (hupper : UpperCase rt.tables upper)
    (hread : ∀ name ∈ mostRecent watchlistMax names, Readable rt.tables upper name)
    (hwrite : ∀ name ∈ mostRecent watchlistMax names, name.toText?.isSome = true)
    (check : DailyCheck) :
    watchlistAfter rt upper (written names) check = written (named rt upper check ++ names) := by
  rw [watchlistAfter, named]
  rcases check.answer with _ | answer
  · rfl
  dsimp only
  rcases parseDailyIntents rt (dailyMode check.positions) check.positions check.timestamp answer
    with e | intents
  · rfl
  rcases hadds : watchlistAdds rt upper answer with e | cleaned
  · have herror : mergeWatchlistFromResponse rt upper (written names) answer = .error e := by
      rw [mergeWatchlistFromResponse, hadds]
      rfl
    rw [herror]
    rfl
  · rw [mergeWatchlistFromResponse_written hupper hread hwrite hadds]
    dsimp only
    split_ifs
    · rfl
    · rfl

end Steps

/-! ### Runs -/

section Runs

variable {F : Type} (rt : PyRuntime F) (upper : Str → Str)

/-- All names of some checks, those of the last check first. -/
def allNamed (checks : List DailyCheck) : List Str := checks.reverse.flatMap (named rt upper)

/-- **The watchlist is up to date**: after some checks, the twenty names that came last are read
from the memory, each once. -/
def UpToDate (checks : List DailyCheck) : Prop :=
  getWatchlist rt.tables upper (run (watchlistAfter rt upper) none checks) =
    mostRecent watchlistMax (allNamed rt upper checks)

/-- None of the names of a check that there is room for has a comma. -/
def Commaless (check : DailyCheck) : Prop :=
  ∀ name ∈ mostRecent watchlistMax (named rt upper check), .scalar ',' ∉ name

instance (check : DailyCheck) : Decidable (Commaless rt upper check) :=
  inferInstanceAs (Decidable (∀ name ∈ _, _))

variable {rt upper} {checks : List DailyCheck} {check : DailyCheck}

/-- A name is on a list that is up to date if and only if fewer than twenty others have been named
since. -/
theorem UpToDate.mem_iff (h : UpToDate rt upper checks) {name : Str} :
    name ∈ getWatchlist rt.tables upper (run (watchlistAfter rt upper) none checks) ↔
      ∃ newer older, allNamed rt upper checks = newer ++ name :: older ∧ name ∉ newer ∧
        newer.toFinset.card < watchlistMax := by
  rw [UpToDate] at h
  rw [h, mem_mostRecent]

theorem allNamed_concat (checks : List DailyCheck) (check : DailyCheck) :
    allNamed rt upper (checks ++ [check]) = named rt upper check ++ allNamed rt upper checks := by
  rw [allNamed, List.reverse_concat, List.flatMap_cons]
  rfl

/-- What holds after checks whose names have no comma: the names read back, and they are what was
written. -/
structure Settled (rt : PyRuntime F) (upper : Str → Str) (checks : List DailyCheck) : Prop where
  readable : ∀ name ∈ mostRecent watchlistMax (allNamed rt upper checks),
    Readable rt.tables upper name
  writable : ∀ name ∈ mostRecent watchlistMax (allNamed rt upper checks),
    name.toText?.isSome = true
  run_eq : run (watchlistAfter rt upper) none checks = written (allNamed rt upper checks)

theorem Settled.upToDate (h : Settled rt upper checks) (hupper : UpperCase rt.tables upper) :
    UpToDate rt upper checks := by
  rw [UpToDate, h.run_eq, getWatchlist_written hupper h.readable]

/-- One more check puts its names in front. -/
theorem Settled.run_concat_eq (h : Settled rt upper checks) (hupper : UpperCase rt.tables upper)
    (check : DailyCheck) :
    run (watchlistAfter rt upper) none (checks ++ [check]) =
      written (allNamed rt upper (checks ++ [check])) := by
  rw [run_concat, h.run_eq, watchlistAfter_written hupper h.readable h.writable, allNamed_concat]

theorem settled_of_commaless (hupper : UpperCase rt.tables upper)
    (h : ∀ check ∈ checks, Commaless rt upper check) : Settled rt upper checks := by
  induction checks using List.reverseRecOn with
  | nil =>
    have hnil : ∀ name, name ∉ mostRecent watchlistMax (allNamed rt upper []) :=
      fun name hname => absurd (mem_of_mem_mostRecent hname) List.not_mem_nil
    exact ⟨fun name hname => absurd hname (hnil name), fun name hname => absurd hname (hnil name),
      rfl⟩
  | append_singleton checks check ih =>
    have hbefore := ih fun check' hmem => h check' (List.mem_append_left _ hmem)
    have hself : Commaless rt upper check := h check (by simp)
    refine ⟨?_, ?_, hbefore.run_concat_eq hupper check⟩
    · intro name hname
      rw [allNamed_concat] at hname
      rcases mem_mostRecent_append hname with hnew | hold
      · obtain ⟨htidy, hne⟩ := named_tidy hupper (mem_of_mem_mostRecent hnew)
        exact ⟨htidy, hne, hself name hnew⟩
      · exact hbefore.readable name hold
    · intro name hname
      rw [allNamed_concat] at hname
      exact (mem_mostRecent_append hname).elim isSome_toText?_named (hbefore.writable name)

/-- **A name with a comma**, if there is room for it, is not read back. -/
theorem UpToDate.commaless (h : UpToDate rt upper (checks ++ [check]))
    (hupper : UpperCase rt.tables upper) : Commaless rt upper check := by
  intro name hname
  have hmem : name ∈ mostRecent watchlistMax (allNamed rt upper (checks ++ [check])) := by
    rw [allNamed_concat]
    exact mostRecent_subset_append _ _ _ hname
  rw [UpToDate] at h
  rw [← h] at hmem
  exact not_mem_of_mem_getWatchlist hupper hmem

/-- **The watchlist stays up to date** throughout a run if and only if no check has a name with a
comma among those that there is room for. -/
theorem watchlist_run (hupper : UpperCase rt.tables upper) (checks : List DailyCheck) :
    (∀ before, before <+: checks → UpToDate rt upper before) ↔
      ∀ check ∈ checks, Commaless rt upper check := by
  constructor
  · intro h check hcheck
    obtain ⟨before, after, rfl⟩ := List.append_of_mem hcheck
    exact (h (before ++ [check]) ⟨after, by simp⟩).commaless hupper
  · intro h before hpre
    exact (settled_of_commaless hupper fun check hcheck =>
      h check (hpre.subset hcheck)).upToDate hupper

end Runs

/-! ### A run -/

theorem upperCase_id (tables : UnicodeTables) : UpperCase tables id :=
  ⟨fun _ => rfl, fun _ h => h, rfl, fun _ h => h⟩

/-- A check whose answer adds some names. -/
def addsCheck (names : List String) : DailyCheck where
  positions := 5
  timestamp := someTime
  answer := some (dumps decimalFloats .compact (.ofRecord
    [("intents", .arr []), ("watchlist_add", .arr (names.map fun name => .str (text name)))]))

/-- A name that is added again moves to the front. -/
theorem watchlist_run_addsChecks :
    getWatchlist .ascii id (run (watchlistAfter plainRuntime id) none
      [addsCheck [" NVDA", "MSFT"], ⟨5, someTime, none⟩, addsCheck ["AMD", "NVDA"]]) =
        [text "AMD", text "NVDA", text "MSFT"] := by
  have hdate := (@watchlist_run _ plainRuntime id (upperCase_id .ascii)
    [addsCheck [" NVDA", "MSFT"], ⟨5, someTime, none⟩, addsCheck ["AMD", "NVDA"]]).mpr
      (by decide +kernel) _ List.prefix_rfl
  exact hdate.trans (by decide +kernel)

end OpusAgent

end TradingPlatform
