/-
# Batches in any order

Batches of prices are taken in one after the other, and each of them shows rows anew from
the cache as it is at that time. What they leave in the end depends on less: on the last
price that they have for each key. So batches may be split, joined, repeated, or exchanged
if they share no key, and neither prices nor rows show any trace of it. A row is left as it
was if no batch names one of its candidates. Otherwise the last batch that does has shown
it anew, and since a candidate has a price from then on, nothing is left of the text that
the cell held before, be it the text of a tick.
-/

import QuoteBoard.Proofs.Board.Mirror

namespace QuoteBoard

/-- The last price that batches have for a key. A key that no batch names has none. -/
def lastPrice? (batches : List (List (Key × Binary64))) (k : Key) : Option Binary64 :=
  batches.flatten.reverse.lookup k

variable (first second : List (List (Key × Binary64))) (batch : List (Key × Binary64)) (k : Key)

theorem lastPrice?_append :
    lastPrice? (first ++ second) k = (lastPrice? second k).or (lastPrice? first k) := by
  simp only [lastPrice?, List.flatten_append, List.reverse_append, List.lookup_append]

theorem lastPrice?_cons :
    lastPrice? (batch :: second) k = (lastPrice? second k).or (batch.reverse.lookup k) := by
  simp only [lastPrice?, List.flatten_cons, List.reverse_append, List.lookup_append]

theorem lastPrice?_concat :
    lastPrice? (first ++ [batch]) k = (batch.reverse.lookup k).or (lastPrice? first k) := by
  rw [lastPrice?_append]
  simp only [lastPrice?, List.flatten_singleton]

theorem mem_keys_iff_lastPrice? :
    k ∈ first.flatten.map Prod.fst ↔ lastPrice? first k ≠ none := by
  have hnone : lastPrice? first k = none ↔ k ∉ first.flatten.reverse.map Prod.fst :=
    TextMap.lookup_eq_none_iff_not_mem
  rw [ne_eq, hnone, not_not]
  simp

namespace Row

variable (r : Row) (cache : Cache) (batch : List (Key × Binary64))

/-- A row after news of some keys: it is shown anew if it looks up one of them. -/
def renew (keys : List Key) : Row :=
  if r.references keys then { r with shown := some (r.due cache) } else r

theorem renew_of_references {keys : List Key} (h : r.references keys = true) :
    r.renew cache keys = { r with shown := some (r.due cache) } := if_pos h

theorem renew_of_not_references {keys : List Key} (h : ¬ r.references keys = true) :
    r.renew cache keys = r := if_neg h

theorem references_append (keys more : List Key) :
    r.references (keys ++ more) = true ↔
      r.references keys = true ∨ r.references more = true := by
  simp only [references_iff, List.mem_append, and_or_left, exists_or]

/-- A row that looks up a key of a batch has a price once the batch is in the cache. -/
theorem exists_price_of_references (h : r.references (batch.map Prod.fst) = true) :
    ∃ price, (cache.merge batch).1.first? r.candidates = some price := by
  obtain ⟨k, hk, hbatch⟩ := (references_iff r).mp h
  rw [← Option.ne_none_iff_exists', ne_eq, Cache.first?_eq_none_iff]
  intro hnone
  have hget := cache.get?_merge batch k
  rw [hnone k hk] at hget
  have hlookup : batch.reverse.lookup k = none := (Option.or_eq_none_iff.mp hget.symm).1
  exact TextMap.lookup_eq_none_iff_not_mem.mp hlookup (by simpa using hbatch)

/-- What is due in a row that looks up a key of a batch does not depend on what the row shows. -/
theorem due_of_references (shown : Option String) (h : r.references (batch.map Prod.fst) = true) :
    due { r with shown } (cache.merge batch).1 = r.due (cache.merge batch).1 := by
  obtain ⟨price, hprice⟩ := r.exists_price_of_references cache batch h
  rw [due_of_price r _ hprice]
  exact due_of_price _ _ hprice

/-- What is due in a row that looks up no key of a batch stays due. -/
theorem due_of_not_references (h : ¬ r.references (batch.map Prod.fst) = true) :
    r.due (cache.merge batch).1 = r.due cache := by
  have hdisjoint : ∀ k ∈ r.candidates, k ∉ batch.map Prod.fst := fun k hk hbatch =>
    h ((references_iff r).mpr ⟨k, hk, hbatch⟩)
  rw [due, due, cache.first?_merge_of_disjoint batch hdisjoint]

/-- To show a row anew twice is to show it anew once, with the news of both times. -/
theorem renew_renew (keys : List Key) :
    (r.renew cache keys).renew (cache.merge batch).1 (batch.map Prod.fst) =
      r.renew (cache.merge batch).1 (keys ++ batch.map Prod.fst) := by
  by_cases hbatch : r.references (batch.map Prod.fst) = true
  · rw [r.renew_of_references _ ((r.references_append _ _).mpr (Or.inr hbatch))]
    by_cases hkeys : r.references keys = true
    · rw [r.renew_of_references _ hkeys,
        renew_of_references { r with shown := some (r.due cache) } _ hbatch,
        r.due_of_references _ _ _ hbatch]
    · rw [r.renew_of_not_references _ hkeys, r.renew_of_references _ hbatch]
  · by_cases hkeys : r.references keys = true
    · rw [r.renew_of_references _ hkeys,
        renew_of_not_references { r with shown := some (r.due cache) } _ hbatch,
        r.renew_of_references _ ((r.references_append _ _).mpr (Or.inl hkeys)),
        r.due_of_not_references _ _ hbatch]
    · have hneither : ¬ r.references (keys ++ batch.map Prod.fst) = true := by
        rw [r.references_append]
        exact not_or.mpr ⟨hkeys, hbatch⟩
      rw [r.renew_of_not_references _ hkeys, r.renew_of_not_references _ hbatch,
        r.renew_of_not_references _ hneither]

end Row

namespace Desk

/-- Prices and rows after batches that are taken in one after the other. -/
def takeIn (d : Desk) (batches : List (List (Key × Binary64))) : Desk :=
  batches.foldl (fun d batch => (d.perform (.merge batch)).desk) d

variable (d : Desk)

theorem takeIn_concat (batches : List (List (Key × Binary64))) (batch : List (Key × Binary64)) :
    d.takeIn (batches ++ [batch]) = ((d.takeIn batches).perform (.merge batch)).desk := by
  simp only [takeIn, List.foldl_append, List.foldl_cons, List.foldl_nil]

/-- After batches a key has its last price in them, and without any the price that it had. -/
theorem get?_takeIn (batches : List (List (Key × Binary64))) (k : Key) :
    (d.takeIn batches).cache.get? k = (lastPrice? batches k).or (d.cache.get? k) := by
  induction batches using List.reverseRecOn with
  | nil => rfl
  | append_singleton batches batch ih =>
      rw [takeIn_concat, lastPrice?_concat, Option.or_assoc, ← ih]
      exact Cache.get?_merge _ batch k

/-- After batches a row with a candidate that one of them names shows what is due in the end, and
every other row is what it was. -/
theorem row?_takeIn (batches : List (List (Key × Binary64))) (id : RowId) :
    (d.takeIn batches).board.row? id = (d.board.row? id).map fun r =>
      r.renew (d.takeIn batches).cache (batches.flatten.map Prod.fst) := by
  induction batches using List.reverseRecOn with
  | nil => simp [takeIn, Row.renew, Row.references]
  | append_singleton batches batch ih =>
      have hnews : (batches ++ [batch]).flatten.map Prod.fst =
          batches.flatten.map Prod.fst ++ batch.map Prod.fst := by
        rw [List.flatten_append, List.flatten_singleton, List.map_append]
      rw [takeIn_concat, row?_perform_merge, ih, Option.map_map, hnews]
      congr 1
      funext r
      exact r.renew_renew _ batch _

/-- Batches with the same last price for every key leave the same prices and rows. -/
theorem takeIn_congr {first second : List (List (Key × Binary64))}
    (hlast : ∀ k, lastPrice? first k = lastPrice? second k) :
    d.takeIn first = d.takeIn second := by
  have hprices : (d.takeIn first).cache.prices = (d.takeIn second).cache.prices := by
    apply TextMap.ext_get?
    intro k
    have hget := (d.get?_takeIn first k).trans (by rw [hlast k])
    exact hget.trans (d.get?_takeIn second k).symm
  have hcache : (d.takeIn first).cache = (d.takeIn second).cache := congrArg Cache.mk hprices
  have hnews (r : Row) : r.references (first.flatten.map Prod.fst) =
      r.references (second.flatten.map Prod.fst) := by
    rw [Bool.eq_iff_iff]
    simp only [Row.references_iff, mem_keys_iff_lastPrice?, hlast]
  have hrows : (d.takeIn first).board.rows = (d.takeIn second).board.rows := by
    apply TextMap.ext_get?
    intro id
    have hfirst := d.row?_takeIn first id
    simp only [Row.renew, hcache, hnews] at hfirst
    exact hfirst.trans (d.row?_takeIn second id).symm
  have hboard : (d.takeIn first).board = (d.takeIn second).board := congrArg Board.mk hrows
  calc d.takeIn first = ⟨(d.takeIn first).cache, (d.takeIn first).board⟩ := rfl
    _ = ⟨(d.takeIn second).cache, (d.takeIn second).board⟩ := by rw [hcache, hboard]

/-- Of two batches that share no key either may come first. -/
theorem lastPrice?_swap {a b : List (Key × Binary64)}
    (hdisjoint : (a.map Prod.fst).Disjoint (b.map Prod.fst)) (before after : List _) (k : Key) :
    lastPrice? (before ++ a :: b :: after) k = lastPrice? (before ++ b :: a :: after) k := by
  have hone : a.reverse.lookup k = none ∨ b.reverse.lookup k = none := by
    simp only [TextMap.lookup_eq_none_iff_not_mem, List.map_reverse, List.mem_reverse]
    exact not_and_or.mp fun ⟨ha, hb⟩ => hdisjoint ha hb
  simp only [lastPrice?_append, lastPrice?_cons, Option.or_assoc]
  rcases hone with hnone | hnone <;> simp [hnone]

theorem nodup_writes_merge (hnames : d.board.NamesRows) (batch : List (Key × Binary64)) :
    ((d.perform (.merge batch)).writes.map Write.row).Nodup := by
  show ((d.board.refresh _ _).2.map Write.row).Nodup
  rw [Board.refresh_eq_repaint]
  exact Board.nodup_rows_writes_repaint hnames _ _

/-- A row that looks up a key of a batch is written if its text changes, with the price that the
first of its candidates with a price has in the merged cache. -/
theorem mem_writes_merge (hnames : d.board.NamesRows) (batch : List (Key × Binary64)) (w : Write) :
    w ∈ (d.perform (.merge batch)).writes ↔
      ∃ r price, d.board.row? w.row = some r ∧ r.references (batch.map Prod.fst) = true ∧
        (d.cache.merge batch).1.first? r.candidates = some price ∧
        w.text = Price.text price ∧ r.shown ≠ some w.text := by
  have hrepaint : (d.perform (.merge batch)).writes = (d.board.repaint
      (fun r => r.references (d.cache.merge batch).2 = true)
      fun r => r.due (d.cache.merge batch).1).2 :=
    congrArg Prod.snd (d.board.refresh_eq_repaint (d.cache.merge batch).1 (d.cache.merge batch).2)
  rw [hrepaint, Mirrors.mem_writes_repaint hnames]
  constructor
  · rintro ⟨r, hrow, hreferences, hchanges, htext⟩
    rw [references_merge_keys] at hreferences
    obtain ⟨price, hprice⟩ := r.exists_price_of_references d.cache batch hreferences
    have hdue := Row.due_of_price r _ hprice
    exact ⟨r, price, hrow, hreferences, hprice, htext.trans hdue, htext ▸ hchanges⟩
  · rintro ⟨r, price, hrow, hreferences, hprice, htext, hchanges⟩
    have hdue := Row.due_of_price r _ hprice
    rw [← references_merge_keys d.cache] at hreferences
    exact ⟨r, hrow, hreferences, hdue ▸ htext ▸ hchanges, htext.trans hdue.symm⟩

/-- **Batches are confluent.** From any prices and rows, batches that have the same last price for
every key leave the same prices and rows, so a batch may be split or joined with the next one,
repeated, or exchanged with a batch of other keys, wherever it stands. A single batch writes each
row once at most, with a price from the merged cache, on any board that keeps its rows under their
own names, as all boards that operations have built do (`namesRows_after`). -/
theorem confluent_takeIn (d : Desk) :
    (∀ first second, (∀ k, lastPrice? first k = lastPrice? second k) →
      d.takeIn first = d.takeIn second) ∧
    (∀ before a b after,
      d.takeIn (before ++ a :: b :: after) = d.takeIn (before ++ (a ++ b) :: after) ∧
      d.takeIn (before ++ a :: a :: after) = d.takeIn (before ++ a :: after) ∧
      ((a.map Prod.fst).Disjoint (b.map Prod.fst) →
        d.takeIn (before ++ a :: b :: after) = d.takeIn (before ++ b :: a :: after))) ∧
    (d.board.NamesRows → ∀ batch,
      ((d.perform (.merge batch)).writes.map Write.row).Nodup ∧
      ∀ w, w ∈ (d.perform (.merge batch)).writes ↔
        ∃ r price, d.board.row? w.row = some r ∧ r.references (batch.map Prod.fst) = true ∧
          (d.perform (.merge batch)).desk.cache.first? r.candidates = some price ∧
          w.text = Price.text price ∧ r.shown ≠ some w.text) := by
  refine ⟨fun first second => d.takeIn_congr, ?_, ?_⟩
  · intro before a b after
    refine ⟨d.takeIn_congr fun k => ?_, d.takeIn_congr fun k => ?_, ?_⟩
    · simp only [lastPrice?_append, lastPrice?_cons, List.reverse_append, List.lookup_append,
        Option.or_assoc]
    · simp [lastPrice?_append, lastPrice?_cons, Option.or_assoc]
    · exact fun hdisjoint => d.takeIn_congr (lastPrice?_swap hdisjoint before after)
  · intro hnames batch
    exact ⟨d.nodup_writes_merge hnames batch, d.mem_writes_merge hnames batch⟩

/-- A row that is bound to two keys and shows a tick, latest operation first. -/
def tickedLog : List Operation :=
  [.tick "7" (some ⟨0x4014000000000000⟩),
    .bind { id := "r", candidates := ["A", "B"], scrip := some "7" }]

/-- Three batches and one batch replace the tick by the same price, the latter with one write. -/
theorem confluent_takeIn_ticked :
    (after tickedLog).board.shownIn "r" = some "5.00" ∧
    (after tickedLog).takeIn [[("B", ⟨0x4024000000000000⟩)], [("A", ⟨0x4024000000000000⟩)],
        [("B", ⟨0x4034000000000000⟩)]] =
      (after tickedLog).takeIn
        [[("A", ⟨0x4024000000000000⟩), ("B", ⟨0x4034000000000000⟩)]] ∧
    ⟨"r", "10.00"⟩ ∈ ((after tickedLog).perform
      (.merge [("A", ⟨0x4024000000000000⟩), ("B", ⟨0x4034000000000000⟩)])).writes := by
  obtain ⟨hsame, -, hwrites⟩ := confluent_takeIn (after tickedLog)
  refine ⟨by decide +kernel, hsame _ _ fun k => ?_, ?_⟩
  · simp only [lastPrice?, List.flatten_cons, List.flatten_nil, List.cons_append, List.nil_append,
      List.reverse_cons, List.reverse_nil, TextMap.lookup_cons_ite]
    split_ifs <;> rfl
  · apply ((hwrites (namesRows_after tickedLog) _).2 _).mpr
    refine ⟨{ id := "r", candidates := ["A", "B"], scrip := some "7", shown := some "5.00" },
      ⟨0x4024000000000000⟩, by decide +kernel, by decide +kernel, by decide +kernel,
      by decide +kernel, by decide⟩

end Desk

end QuoteBoard
