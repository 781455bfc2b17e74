/-
# Candidates with attached keys

A row is bound with the candidates of its fields, and each contract that is found for it later
attaches one more key. A key that the row looks up already is not added again, so the list only
grows at its end: the candidates that the row was bound with stay in front, in their order, and if
they are different the list never repeats a key.
-/

import QuoteBoard.Proofs.Board.Lookup
import QuoteBoard.Proofs.Instrument.Candidates
import QuoteBoard.Proofs.Text.Distinct

namespace QuoteBoard

/-- What a resolution brings to a row, and the prices that are known then. -/
structure Attachment where
  scrip : Option String
  key : Key
  cache : Cache

namespace Board

/-- The board after attachments to one row. -/
def attachAll (b : Board) (id : RowId) (attachments : List Attachment) : Board :=
  attachments.foldl (fun b a => (b.attach id a.scrip a.key a.cache).1) b

variable {b : Board} {id : RowId} {r : Row}

/-- An attachment puts its key behind the candidates of the row, unless it is one of them. -/
theorem candidates_attach (hrow : b.row? id = some r) (a : Attachment) :
    ∃ r', (b.attach id a.scrip a.key a.cache).1.row? id = some r' ∧
      r'.candidates = if a.key ∈ r.candidates then r.candidates else r.candidates ++ [a.key] := by
  refine ⟨{ resolved r a.scrip a.key with
    shown := some ((resolved r a.scrip a.key).due a.cache) }, ?_, ?_⟩
  · rw [row?_attach, if_pos rfl, hrow, Option.map_some]
  · simp only [resolved, List.contains_eq_mem, decide_eq_true_eq]

/-- **Attached keys come behind the candidates**, each once and in the order in which they are first
attached. -/
theorem candidates_attachAll (hrow : b.row? id = some r) (attachments : List Attachment) :
    ∃ r', (b.attachAll id attachments).row? id = some r' ∧
      r'.candidates = r.candidates ++
        firstOccurrencesFrom some r.candidates (attachments.map Attachment.key) := by
  induction attachments generalizing b r with
  | nil => exact ⟨r, hrow, (List.append_nil _).symm⟩
  | cons a rest ih =>
      obtain ⟨r₁, hrow₁, hcandidates₁⟩ := candidates_attach hrow a
      obtain ⟨r', hrow', hcandidates'⟩ := ih hrow₁
      refine ⟨r', hrow', ?_⟩
      rw [hcandidates', hcandidates₁, List.map_cons]
      by_cases hkey : a.key ∈ r.candidates
      · rw [if_pos hkey, firstOccurrencesFrom_of_mem hkey]
      · have hseen : ∀ k, k ∈ r.candidates ++ [a.key] ↔ k ∈ a.key :: r.candidates := by
          simp [or_comm]
        rw [if_neg hkey, firstOccurrencesFrom_of_not_mem hkey, firstOccurrencesFrom_congr hseen,
          List.append_assoc, List.singleton_append]

end Board

namespace Identity

open Text (trimmed)

/-- **Candidate lists are well formed.** The candidates of a row are different keys, those of its
symbol and behind them that of its contract if it has a strike; blanks around its fields and the
case of its exchange make no difference; and whatever is attached to a bound row, the candidates
that it had stay in front and no key is repeated if none was. -/
theorem candidates_wellFormed (row : Identity) :
    row.WellListed row.candidates ∧
      (∀ other, Respells row other → other.candidates = row.candidates) ∧
      ∀ (b : Board) (id : RowId) (r : Row) (attachments : List Attachment),
        b.row? id = some r → r.candidates.Nodup →
          ∃ r', (b.attachAll id attachments).row? id = some r' ∧
            r.candidates <+: r'.candidates ∧ r'.candidates.Nodup := by
  refine ⟨row.wellListed_candidates, fun other h => (candidates_eq_of_respells h).symm, ?_⟩
  intro b id r attachments hrow hnodup
  obtain ⟨r', hrow', hcandidates⟩ := Board.candidates_attachAll hrow attachments
  refine ⟨r', hrow', ?_, ?_⟩
  · rw [hcandidates]
    exact List.prefix_append _ _
  · rw [hcandidates]
    exact nodup_append_firstOccurrencesFrom hnodup

/-- A call on an exchange that is not known. -/
def call : Identity :=
  { exchange := some " mcx ", symbol := "GOLD", strike := some "700", optionType := some "CE" }

/-- The same call, with blanks in other places. -/
def respelledCall : Identity :=
  { exchange := some "McX", symbol := " GOLD", strike := some "700\t", expiry := some "  "
    optionType := some " CE" }

/-- A board with a row that is bound to the candidates of the call. -/
def callBoard : Board := (Board.empty.bind ⟨"r", call.candidates, none⟩ Cache.empty).1

/-- Contracts that are found for the row: a key of its own, a new one, and that one again. -/
def callAttachments : List Attachment :=
  [⟨some "7", "MCX:GOLD700CE", Cache.empty⟩, ⟨none, "MCX:GOLD25700CE", Cache.empty⟩,
    ⟨none, "MCX:GOLD25700CE", Cache.empty⟩]

/-- The call has the key of its contract behind the four others, however it is spelled, and keeps
them in front of an attached key. -/
theorem candidates_wellFormed_call :
    call.candidates = ["NSE:GOLD", "BSE:GOLD", "NFO:GOLD", "BFO:GOLD", "MCX:GOLD700CE"] ∧
      (trimmed call.strike ≠ "" ∧ ∃ segment, call.ContractSegment segment ∧
        call.candidates = ({ call with strike := none } : Identity).candidates ++
          [scopedKey segment call.contractText]) ∧
      respelledCall.candidates = call.candidates ∧
      ∃ r', (callBoard.attachAll "r" callAttachments).row? "r" = some r' ∧
        call.candidates <+: r'.candidates ∧ r'.candidates.Nodup := by
  obtain ⟨hlisted, hspelling, hattached⟩ := candidates_wellFormed call
  have hstrike : trimmed call.strike ≠ "" := by decide +kernel
  have hcode : (Text.trim (call.exchange.getD "")).toUpper = "MCX" := by decide +kernel
  have hrespelled : (Text.trim (respelledCall.exchange.getD "")).toUpper = "MCX" := by
    decide +kernel
  have hrespells : Respells call respelledCall := by
    constructor
    case exchange => exact Text.sameCode_iff.mpr (hcode.trans hrespelled.symm)
    all_goals exact Text.sameText_iff.mpr (by decide +kernel)
  have hrow : callBoard.row? "r" =
      some { id := "r", candidates := call.candidates, shown := some "-" } := by decide +kernel
  exact ⟨by decide +kernel, ⟨hstrike, hlisted.of_strike hstrike⟩, hspelling _ hrespells,
    hattached callBoard "r" _ callAttachments hrow hlisted.nodup⟩

end Identity

end QuoteBoard
