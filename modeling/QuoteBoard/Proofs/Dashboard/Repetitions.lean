/-
# Which rows of a table are kept

The backend may list a row more than once. Rows are told apart by their ids: of the rows of one
id the first is kept, and the others are left out, whatever they say. A row without an id cannot
be told from any other, so all of these are kept. What is kept stays in order and as it is, and
has no repetitions left.
-/

import QuoteBoard.Dashboard.Table
import QuoteBoard.Proofs.Text.Distinct

namespace QuoteBoard.Dashboard

variable (rows : List TradeRow)

/-- The ids that are left differ from each other. -/
theorem nodup_ids_dedupe : ((dedupe rows).filterMap TradeRow.id).Nodup :=
  (firstSeen_firstOccurrences TradeRow.id rows).nodup

/-- The ids that are left are those of all rows. -/
theorem mem_ids_dedupe_iff {id : String} :
    id ∈ (dedupe rows).filterMap TradeRow.id ↔ id ∈ rows.filterMap TradeRow.id :=
  (firstSeen_firstOccurrences TradeRow.id rows).mem_iff id

/-- **Kept are the rows without an id and the first row of each id.** They stay in order, and no
row is altered. Each id of a row is the id of exactly one row that is kept, which is the first row
with this id, and no other id occurs. To leave out repetitions a second time changes nothing. -/
theorem dedupe_keeps_first_rows :
    dedupe rows = (rows.zipIdx.filter (IsNew TradeRow.id rows)).map Prod.fst ∧
    (dedupe rows).Sublist rows ∧
    (∀ id, ((dedupe rows).filterMap TradeRow.id).count id =
      if id ∈ rows.filterMap TradeRow.id then 1 else 0) ∧
    (∀ id, (dedupe rows).find? (fun row => row.id = some id) =
      rows.find? fun row => row.id = some id) ∧
    dedupe (dedupe rows) = dedupe rows := by
  refine ⟨firstOccurrences_eq_filter TradeRow.id rows, firstOccurrences_sublist TradeRow.id rows,
    fun id => ?_, fun id => ?_, firstOccurrences_firstOccurrences TradeRow.id rows⟩
  · rw [(nodup_ids_dedupe rows).count]
    simp only [mem_ids_dedupe_iff]
  · exact find?_firstOccurrencesFrom TradeRow.id rows List.not_mem_nil

/-- Of the two rows of the id `1` the first is kept, and so are both rows without an id. -/
example : dedupe
    [⟨some "1", { symbol := "NIFTY" }, none⟩, ⟨some "1", { symbol := "TCS" }, none⟩,
      ⟨none, { symbol := "SBIN" }, none⟩, ⟨none, { symbol := "SBIN" }, none⟩] =
    [⟨some "1", { symbol := "NIFTY" }, none⟩, ⟨none, { symbol := "SBIN" }, none⟩,
      ⟨none, { symbol := "SBIN" }, none⟩] := by decide

end QuoteBoard.Dashboard
