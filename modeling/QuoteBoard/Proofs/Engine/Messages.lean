/-
# What a message does

The feed is only half trusted, so the engine lets each message do no more than it is for. A message
that says nothing is counted as dropped, and that is all. A scrip tick puts one text into the rows
that carry its code and leaves the prices alone. Any other message puts its prices into the cache
and shows anew the rows that look up one of its keys. The connection, the timer, what a row is bound
to and every other cell stay as they are, whatever the message says.
-/

import QuoteBoard.Health.Panel
import QuoteBoard.Proofs.Board.Confluence
import QuoteBoard.Proofs.Engine.Cells
import QuoteBoard.Proofs.Engine.Refresh
import QuoteBoard.Proofs.Feed.Messages

namespace QuoteBoard.Engine

open QuoteBoard.Feed (Says ScripTick Shape)
open QuoteBoard.Health (Display Metrics Panel)
open QuoteBoard.Json (Value)

/-! ## Rows and cells -/

/-- From one state and display to another, exactly some rows are shown anew: each of them shows a
text that is right for it, in its cell too, and stays otherwise as it was; under any other name
there is the same row or none, and the same text in the cell or none. -/
structure ShownAnew (s s' : State) (d d' : Display) (chosen : Row → Prop)
    (right : Row → String → Prop) : Prop where
  shown : ∀ id r, s.board.row? id = some r → chosen r → ∃ text, right r text ∧
    s'.board.row? id = some { r with shown := some text } ∧ d'.cell? id = some text
  kept : ∀ id, (∀ r, s.board.row? id = some r → ¬ chosen r) →
    s'.board.row? id = s.board.row? id ∧ d'.cell? id = d.cell? id

/-- To know the rows is to know the cells, which mirror them. -/
theorem ShownAnew.of_rows {s s' : State} {d d' : Display} {chosen test : Row → Prop}
    [DecidablePred test] {right : Row → String → Prop} {text : Row → String}
    (hcells : Mirrors d.cells s.board) (hcells' : Mirrors d'.cells s'.board)
    (hrows : ∀ id, s'.board.row? id =
      (s.board.row? id).map fun r => if test r then { r with shown := some (text r) } else r)
    (htest : ∀ r, chosen r ↔ test r) (hright : ∀ r, chosen r → right r (text r)) :
    ShownAnew s s' d d' chosen right where
  shown := by
    intro id r hrow hchosen
    have hrow' : s'.board.row? id = some { r with shown := some (text r) } := by
      rw [hrows, hrow, Option.map_some, if_pos ((htest r).mp hchosen)]
    refine ⟨text r, hright r hchosen, hrow', ?_⟩
    rw [Display.cell?, hcells', Board.shownIn, hrow', Option.bind_some]
  kept := by
    intro id hnot
    have hrow' : s'.board.row? id = s.board.row? id := by
      rw [hrows]
      cases hrow : s.board.row? id with
      | none => rfl
      | some r => rw [Option.map_some, if_neg fun htrue => hnot r hrow ((htest r).mpr htrue)]
    refine ⟨hrow', ?_⟩
    rw [Display.cell?, Display.cell?, hcells', hcells, Board.shownIn, Board.shownIn, hrow']

/-- The text for a value in the place of a price: the price, if it spells a finite number, and the
placeholder otherwise. -/
inductive TextFor : Value → String → Prop
  | price {v : Value} {price : Binary64} (h : v.Spells price) (hfinite : price.isFinite = true) :
      TextFor v (Price.text price)
  | placeholder {v : Value} (h : ∀ price, v.Spells price → price.isFinite = false) :
      TextFor v "-"

theorem textFor_iff {v : Value} {text : String} :
    TextFor v text ↔ text = Board.tickText v.price? := by
  constructor
  · intro h
    cases h with
    | price h hfinite =>
        rw [Value.price?_eq_some_iff.mpr ⟨h, hfinite⟩]
        rfl
    | placeholder h =>
        rw [Value.price?_eq_none_iff.mpr h]
        rfl
  · rintro rfl
    cases hprice : v.price? with
    | none => exact .placeholder (Value.price?_eq_none_iff.mp hprice)
    | some price =>
        obtain ⟨hspells, hfinite⟩ := Value.price?_eq_some_iff.mp hprice
        exact .price hspells hfinite

/-! ## One message -/

theorem size_change (b : Board) (f : Row → Row × Option Write) :
    (b.change f).1.size = b.size := List.length_map _

variable {s : State} {text : String}

/-- To publish what is published already changes nothing. -/
theorem State.InLine.publish_eq (h : s.InLine) : s.publish = s := by
  rw [State.publish, ← h.published]

/-- As long as there are as many rows as before, the published status follows the cache alone. -/
theorem State.InLine.publish_of_rows (h : s.InLine) (cache : Cache) {board : Board}
    (hrows : board.size = s.board.size) :
    State.publish { s with cache, board } =
      { s with cache, board, published := { s.published with cacheEntries := cache.size } } := by
  rw [State.publish, State.status, h.published, State.status, hrows]

/-- To take in prices changes the cache and the rows, and there are as many rows as before. -/
theorem merge_eq (s : State) (batch : PriceMap) :
    (s.merge batch).1 = { s with
      cache := (s.merge batch).1.cache, board := (s.merge batch).1.board } ∧
    (s.merge batch).1.board.size = s.board.size := by
  unfold State.merge
  split
  · exact ⟨rfl, rfl⟩
  · exact ⟨rfl, size_change ..⟩

/-- A message that says nothing is counted as dropped. -/
theorem step_of_silent (h : s.InLine)
    (hsilent : ∀ v, Value.ofText? text = some v → ∀ shape u, ¬ Says v shape u) (now : Instant) :
    s.step now (.stream (.message text)) = (s, [.measure (.feedMessage none)]) := by
  obtain ⟨rejection, hread⟩ := Feed.exists_rejection_iff.mpr hsilent
  have hmessage : s.onMessage text = (s, [.measure (.feedMessage none)]) := by
    rw [State.onMessage, hread]
  simp only [State.step, State.onStream, hmessage, h.publish_eq]

/-- The state after a message is what its update leaves, published. -/
theorem step_of_said {v : Value} {shape : Shape} {u : Feed.Update}
    (hv : Value.ofText? text = some v) (hsaid : Says v shape u) (now : Instant) :
    s.step now (.stream (.message text)) =
      ((s.update u).1.publish, .measure (.feedMessage (some shape)) :: (s.update u).2) := by
  simp only [State.step, State.onStream, State.onMessage, Feed.read_eq_ok_iff.mpr ⟨v, hv, hsaid⟩]

/-- A scrip tick changes the rows alone. -/
theorem state_of_scripTick (h : s.InLine) {fields : List (String × Value)} {code : String}
    {price : Value} (hv : Value.ofText? text = some (.object fields))
    (htick : ScripTick fields code price) (now : Instant) :
    (s.step now (.stream (.message text))).1 =
      { s with board := (s.board.tick code price.price?).1 } := by
  have hpublished : { s.published with cacheEntries := s.cache.size } = s.published := by
    rw [h.published, State.status]
  rw [step_of_said hv (.scripTick htick)]
  refine (h.publish_of_rows s.cache (size_change s.board _)).trans ?_
  rw [hpublished]
  rfl

/-- Prices change the cache, with it the published status, and the rows. -/
theorem state_of_prices (h : s.InLine) {v : Value} {shape : Shape} {batch : PriceMap}
    (hv : Value.ofText? text = some v) (hsaid : Says v shape (.prices batch)) (now : Instant) :
    (s.step now (.stream (.message text))).1 = { s with
      cache := (s.merge batch).1.cache, board := (s.merge batch).1.board
      published := { s.published with cacheEntries := (s.merge batch).1.cache.size } } := by
  obtain ⟨hmerge, hrows⟩ := merge_eq s batch
  rw [step_of_said hv hsaid]
  exact (congrArg State.publish hmerge).trans (h.publish_of_rows _ hrows)

/-- An effect on the cells or on the metrics, other than the removal of a cell. -/
def Effect.Shows (e : Effect) : Prop := (∃ w, e = .write w) ∨ ∃ m, e = .measure m

theorem shows_of_mem_flush {writes : List Write} {e : Effect} (he : e ∈ flush writes) : e.Shows :=
  (mem_flush_cases he).imp_left fun ⟨w, _, hw⟩ => ⟨w, hw⟩

theorem shows_of_mem_update {u : Feed.Update} {e : Effect} (he : e ∈ (s.update u).2) :
    e.Shows := by
  cases u with
  | scrip code price => exact shows_of_mem_flush he
  | prices batch =>
      change e ∈ (s.merge batch).2 at he
      unfold State.merge at he
      split at he
      · cases he
      · rcases List.mem_cons.mp he with rfl | he
        · exact Or.inr ⟨_, rfl⟩
        · exact shows_of_mem_flush he

/-- A message asks for no prices, answers nobody and takes no cell away. -/
theorem shows_of_message {now : Instant} {e : Effect}
    (he : e ∈ (s.step now (.stream (.message text))).2) : e.Shows := by
  change e ∈ (s.onMessage text).2 at he
  unfold State.onMessage at he
  cases hread : Feed.read text with
  | error rejection =>
      rw [hread] at he
      exact Or.inr ⟨_, List.mem_singleton.mp he⟩
  | ok classified =>
      rw [hread] at he
      rcases List.mem_cons.mp he with rfl | he
      · exact Or.inr ⟨_, rfl⟩
      · exact shows_of_mem_update he

/-! ## What has changed -/

/-- Nothing has changed but the number of messages that were dropped. -/
structure Dropped (s s' : State) (d d' : Display) (effects : List Effect) : Prop where
  state : s' = s
  display : d' = d
  panel : ∀ p : Panel, effects.foldl Panel.follow p = { p with metrics := { p.metrics with
    feedMessages := Metrics.countOne p.metrics.feedMessages "dropped" } }

/-- Of the state only rows have changed: those that carry the code show the text for the value. -/
structure Ticked (s s' : State) (d d' : Display) (code : String) (price : Value) : Prop where
  state : s' = { s with board := s'.board }
  rows : ShownAnew s s' d d' (fun r => r.scrip = some code) fun _ => TextFor price

/-- Of the state only the cache has changed, with the number of its entries in the published status,
and rows: a key of the batch has its price there, which is finite, and any other key the price that
it had; and the rows that look up a key of the batch show the price that is now first among their
candidates. -/
structure Priced (s s' : State) (d d' : Display) (batch : PriceMap) : Prop where
  state : s' = { s with
    cache := s'.cache, board := s'.board
    published := { s.published with cacheEntries := s'.cache.size } }
  cache : ∀ k, s'.cache.get? k = (batch.get? k).or (s.cache.get? k)
  finite : ∀ k price, batch.get? k = some price → price.isFinite = true
  rows : ShownAnew s s' d d' (fun r => ∃ k ∈ r.candidates, ∃ price, batch.get? k = some price)
    fun r text => ∃ price, s'.cache.first? r.candidates = some price ∧ text = Price.text price

/-- A row that looks up a key that a batch has a price for is one that the batch shows anew. -/
theorem references_entries_iff (r : Row) (batch : PriceMap) :
    (∃ k ∈ r.candidates, ∃ price, batch.get? k = some price) ↔
      r.references (batch.entries.map Prod.fst) = true := by
  simp only [Row.references_iff, ← TextMap.mem_keys_iff]
  rfl

section Step

variable {d d' : Display} (now : Instant)

theorem dropped_of_silent (h : s.InLine)
    (hsilent : ∀ v, Value.ofText? text = some v → ∀ shape u, ¬ Says v shape u) :
    let o := s.step now (.stream (.message text))
    Dropped s o.1 d (o.2.foldl Display.follow d) o.2 := by
  intro o
  have ho : o = (s, [.measure (.feedMessage none)]) := step_of_silent h hsilent now
  rw [ho]
  exact ⟨rfl, rfl, fun p => rfl⟩

theorem ticked_of_scripTick (h : s.InLine) {fields : List (String × Value)} {code : String}
    {price : Value} (hv : Value.ofText? text = some (.object fields))
    (htick : ScripTick fields code price) (hcells : Mirrors d.cells s.board)
    (hcells' : Mirrors d'.cells (s.step now (.stream (.message text))).1.board) :
    Ticked s (s.step now (.stream (.message text))).1 d d' code price := by
  rw [state_of_scripTick h hv htick] at hcells' ⊢
  exact ⟨rfl, .of_rows hcells hcells' (s.board.row?_tick code price.price?) (fun r => Iff.rfl)
    fun r _ => textFor_iff.mpr rfl⟩

theorem priced_of_said (h : s.InLine) {v : Value} {shape : Shape} {batch : PriceMap}
    (hv : Value.ofText? text = some v) (hsaid : Says v shape (.prices batch))
    (hcells : Mirrors d.cells s.board)
    (hcells' : Mirrors d'.cells (s.step now (.stream (.message text))).1.board) :
    Priced s (s.step now (.stream (.message text))).1 d d' batch := by
  have hperform : (s.merge batch).1.desk = (s.desk.perform (.merge batch.entries)).desk :=
    (carries_merge s batch).desk
  have hcache : (s.merge batch).1.cache = (s.cache.merge batch.entries).1 :=
    congrArg Desk.cache hperform
  have hrows := s.desk.row?_perform_merge batch.entries
  rw [← hperform] at hrows
  rw [state_of_prices h hv hsaid] at hcells' ⊢
  refine ⟨rfl, fun k => ?_, fun k price => hsaid.isFinite,
    .of_rows hcells hcells' hrows (references_entries_iff · batch) fun r hreferences => ?_⟩
  · rw [hcache]
    exact s.cache.get?_merge_entries batch k
  · rw [references_entries_iff] at hreferences
    obtain ⟨price, hprice⟩ := r.exists_price_of_references s.cache batch.entries hreferences
    refine ⟨price, ?_, r.due_of_price _ hprice⟩
    rw [hcache]
    exact hprice

end Step

/-! ## One message after a past -/

/-- **A message has its own effect and no other.** Whatever an engine has handled, and whatever the
next message is, the message only writes cells and measures. If it has no value, or one that says
nothing, it is dropped. If it is a scrip tick, the rows that carry its code show its price, or the
placeholder if that is not a finite number, and nothing else has changed. If it brings prices, these
are in the cache and are shown by the rows that look them up, and nothing else has changed. -/
theorem message_has_own_effect (period : Nat) (started : Instant) (past : Past) (now : Instant)
    (text : String) :
    let e := Event.stream (.message text)
    let s := stateAfter period started past
    let s' := stateAfter period started ((now, e) :: past)
    let d := displayAfter period started past
    let d' := displayAfter period started ((now, e) :: past)
    (∀ effect ∈ (s.step now e).2, effect.Shows) ∧
      ((∀ v, Value.ofText? text = some v → ∀ shape u, ¬ Says v shape u) →
        Dropped s s' d d' (s.step now e).2) ∧
      (∀ fields code price, Value.ofText? text = some (.object fields) →
        ScripTick fields code price → Ticked s s' d d' code price) ∧
      ∀ v shape batch, Value.ofText? text = some v → Says v shape (.prices batch) →
        Priced s s' d d' batch := by
  intro e s s' d d'
  have hinLine : s.InLine := inLine_stateAfter period started past
  have hcells : Mirrors d.cells s.board := mirrors_displayAfter period started past
  have hcells' : Mirrors d'.cells s'.board := mirrors_displayAfter period started _
  have hfollow : d' = (s.step now e).2.foldl Display.follow d := List.foldl_append
  refine ⟨fun effect => shows_of_message, fun hsilent => ?_, ?_, ?_⟩
  · rw [hfollow]
    exact dropped_of_silent now hinLine hsilent
  · intro fields code price hv htick
    exact ticked_of_scripTick now hinLine hv htick hcells hcells'
  · intro v shape batch hv hsaid
    exact priced_of_said now hinLine hv hsaid hcells hcells'

/-- Two rows: one looks up two keys and carries a code, the other looks up a third key. -/
def boundPast : Past :=
  [(1, .command (.replaceRows "u/"
    [{ id := "u/1", candidates := ["B", "A"], scrip := some "7" },
      { id := "u/2", candidates := ["C"] }]))]

/-- A key without a price is nothing to go by; a tick of the code shows in the first row; and of two
prices for a key in an array the later one is in the cache, while the second row keeps its cell. -/
theorem message_has_own_effect_boundPast :
    let s := stateAfter 1000 0 boundPast
    let after (text : String) : Past := (2, .stream (.message text)) :: boundPast
    let keyOnly := "\x7b\"i\": \"A\"\x7d"
    let tick := "\x7b\"scripCode\": 7, \"ltp\": \" 5 \"\x7d"
    let ticks :=
      "[\x7b\"i\": \"A\", \"last_price\": 9\x7d, \x7b\"i\": \"A\", \"last_price\": 10\x7d]"
    stateAfter 1000 0 (after keyOnly) = s ∧
    (stateAfter 1000 0 (after tick)).cache = s.cache ∧
    (displayAfter 1000 0 (after tick)).cell? "u/1" = some "5.00" ∧
    (stateAfter 1000 0 (after ticks)).cache.get? "A" = some ⟨0x4024000000000000⟩ ∧
    (displayAfter 1000 0 (after ticks)).cell? "u/2" =
      (displayAfter 1000 0 boundPast).cell? "u/2" := by
  intro s after keyOnly tick ticks
  have hkeyOnly : Feed.read keyOnly = .error .unrecognized := by decide +kernel
  have htick : Feed.read tick = .ok (.scripTick, .scrip "7" (some ⟨0x4014000000000000⟩)) := by
    decide +kernel
  have hticks : Feed.read ticks =
      .ok (.tickArray, .prices (TextMap.ofList [("A", ⟨0x4024000000000000⟩)])) := by decide +kernel
  obtain ⟨-, hsilent, -⟩ := message_has_own_effect 1000 0 boundPast 2 keyOnly
  obtain ⟨-, -, hscrip, -⟩ := message_has_own_effect 1000 0 boundPast 2 tick
  obtain ⟨-, -, -, hprices⟩ := message_has_own_effect 1000 0 boundPast 2 ticks
  have hdropped := hsilent (Feed.exists_rejection_iff.mp ⟨_, hkeyOnly⟩)
  obtain ⟨v, hv, hsaid⟩ := Feed.read_eq_ok_iff.mp htick
  obtain ⟨fields, price, rfl, hfields, hprice⟩ := hsaid.exists_scripTick
  have hticked := hscrip fields "7" price hv hfields
  obtain ⟨w, hw, hsaidPrices⟩ := Feed.read_eq_ok_iff.mp hticks
  have hpriced := hprices w _ _ hw hsaidPrices
  have hfirst : s.board.row? "u/1" = some
      { id := "u/1", candidates := ["B", "A"], scrip := some "7", shown := some "-" } := by
    decide +kernel
  have hsecond : s.board.row? "u/2" = some
      { id := "u/2", candidates := ["C"], shown := some "-" } := by decide +kernel
  refine ⟨hdropped.state, ?_, ?_, ?_, ?_⟩
  · rw [hticked.state]
  · obtain ⟨text, htext, -, hcell⟩ := hticked.rows.shown "u/1" _ hfirst rfl
    rw [textFor_iff, hprice] at htext
    rw [hcell, htext]
    decide +kernel
  · exact hpriced.cache "A"
  · refine (hpriced.rows.kept "u/2" fun r hrow => ?_).2
    cases hrow.symm.trans hsecond
    rintro ⟨k, hk, price, hprice⟩
    cases List.mem_singleton.mp hk
    cases hprice

end QuoteBoard.Engine
