/-
# Scrip codes match by value

A tick finds the rows of its scrip code by the text of the code, and the rows were given theirs by
the backend, which may spell the same number differently. The two meet if the numbers have the same
value: always if both are integers or both are not, and otherwise below the limit up to which a
whole number is written as an integer.
-/

import QuoteBoard.Backend.Record
import QuoteBoard.Proofs.Engine.Payloads
import QuoteBoard.Proofs.Feed.Scalar

namespace QuoteBoard.Engine

open QuoteBoard.Backend (tradeRow)
open QuoteBoard.Json (Number Value field? wholeLimit)

/-- Two numbers stand for the same scrip code. -/
def SameCode (a b : Number) : Prop :=
  a.toRat = b.toRat ∧ (a.isInteger = b.isInteger ∨ |a.toRat| < wholeLimit)

/-- A tick for a scrip code. -/
def codeTick (code : Number) (price : Value) : Value :=
  Value.ofMembers [("scripCode", .number code), ("ltp", price)]

theorem codeTick_eq (code : Number) (price : Value) :
    codeTick code price = .object [("ltp", price), ("scripCode", .number code)] := by
  have hbefore : "ltp" < "scripCode" := by decide
  simp only [codeTick, Value.ofMembers, List.foldl_cons, List.foldl_nil, TextMap.insertEntry,
    if_pos hbefore]

/-- A tick with a price field is addressed by the text of its code. -/
theorem classify?_codeTick (code : Number) {price : Value} (hprice : price ≠ .null) :
    Feed.classify? (codeTick code price) =
      some (.scripTick, .scrip code.text price.price?) := by
  have hcode : field? [("ltp", price), ("scripCode", .number code)] "scripCode" =
      some (.number code) := rfl
  have hpresent :
      Feed.present? [("ltp", price), ("scripCode", .number code)] "ltp" = some price := by
    cases price with
    | null => exact absurd rfl hprice
    | boolean | number | text | array | object => rfl
  have htick : Feed.scripTick? [("ltp", price), ("scripCode", .number code)] =
      some (code.text, price.price?) := by
    rw [Feed.scripTick?, hcode, hpresent]
    rfl
  simp only [codeTick_eq, Feed.classify?, Feed.classifyObject?, htick]

/-- A tick shows its price in the rows that carry the text of its code. -/
theorem row?_onPayload_codeTick (s : State) (code : Number) {price : Value} (hprice : price ≠ .null)
    (id : RowId) : (s.onPayload (codeTick code price)).1.board.row? id =
      (s.board.row? id).map fun r =>
        if r.scrip = some code.text then { r with shown := some (Board.tickText price.price?) }
        else r := by
  have hboard : (s.onPayload (codeTick code price)).1.board =
      (s.board.tick code.text price.price?).1 := by
    simp only [State.onPayload, classify?_codeTick code hprice]
    rfl
  rw [hboard, Board.row?_tick]

/-- A record with a number for its scrip code gives the row the text of the number. -/
theorem scrip_tradeRow {record : List (String × Value)} {code : Number}
    (h : field? record "scripCode" = some (.number code)) :
    (tradeRow record).scrip = some code.text := by
  change (Backend.scripNames.findSome? fun name =>
    (field? record name).bind Value.scalarText?) = some code.text
  rw [Backend.scripNames, List.findSome?_cons, h]
  rfl

/-- **Scrip codes match by value.** Two numbers have the same text if they have the same value and
are of the same kind or of a size below the limit. So a tick with one of them for its code shows
its price in a row that was loaded with the other exactly then, and leaves the row alone
otherwise. -/
theorem codes_match_by_value (a b : Number) :
    (Value.scalarText? (.number a) = Value.scalarText? (.number b) ↔ SameCode a b) ∧
      ∀ (price : Value) (record : List (String × Value)) (s : State) (id : RowId) (r : Row),
        price ≠ .null → field? record "scripCode" = some (.number b) →
        s.board.row? id = some r → r.scrip = (tradeRow record).scrip →
          (SameCode a b → (s.onPayload (codeTick a price)).1.board.row? id =
            some { r with shown := some (Board.tickText price.price?) }) ∧
          (¬ SameCode a b → (s.onPayload (codeTick a price)).1.board.row? id = some r) := by
  have htext : a.text = b.text ↔ SameCode a b := Number.text_eq_iff a b
  refine ⟨by rw [Value.scalarText?, Value.scalarText?, Option.some.injEq, htext], ?_⟩
  intro price record s id r hprice hcode hrow hscrip
  have hmatch : r.scrip = some a.text ↔ SameCode a b := by
    rw [hscrip, scrip_tradeRow hcode, Option.some.injEq, eq_comm, htext]
  rw [row?_onPayload_codeTick s a hprice, hrow, Option.map_some]
  exact ⟨fun h => by rw [if_pos (hmatch.mpr h)], fun h => by rw [if_neg (mt hmatch.mp h)]⟩

/-- An engine with a row that was loaded with the scrip code 501.0. -/
def codedRows : State :=
  stateAfter 1000 0 [(1, .command (.replaceRows "u/"
    [{ id := "u/1", candidates := []
       scrip := (tradeRow [("scripCode", .number (.binary ⟨0x407F500000000000⟩))]).scrip }]))]

theorem codes_match_by_value_integral :
    (codedRows.onPayload (codeTick (.integer 501) (.number (.integer 5)))).1.board.row? "u/1" =
      some { id := "u/1", candidates := [], scrip := some "501", shown := some "5.00" } := by
  have hvalue : (⟨0x407F500000000000⟩ : Binary64).toRat = (501 : Int) :=
    (Binary64.toInt?_eq_some_iff.mp (by decide)).2
  have hsame : SameCode (.integer 501) (.binary ⟨0x407F500000000000⟩) := by
    refine ⟨hvalue.symm, Or.inr ?_⟩
    norm_num [Number.toRat, wholeLimit]
  have hrow : codedRows.board.row? "u/1" =
      some { id := "u/1", candidates := [], scrip := some "501", shown := some "-" } := by
    decide +kernel
  have hscrip : some "501" =
      (tradeRow [("scripCode", .number (.binary ⟨0x407F500000000000⟩))]).scrip := by decide +kernel
  have hshown := ((codes_match_by_value (.integer 501) (.binary ⟨0x407F500000000000⟩)).2
    (.number (.integer 5)) _ codedRows "u/1" _ (by simp) rfl hrow hscrip).1 hsame
  rw [hshown]
  decide +kernel

/-- Numbers of one value may have different texts: from the limit on, an integer has no point and
a whole binary number has one. -/
theorem not_forall_codes_match :
    ¬ ∀ a b : Number, Value.scalarText? (.number a) = Value.scalarText? (.number b) ↔
      a.toRat = b.toRat := by
  intro h
  have hvalue : (⟨0x430C6BF526340000⟩ : Binary64).toRat = (1000000000000000 : Int) :=
    (Binary64.toInt?_eq_some_iff.mp (by decide)).2
  have htext := (h (.integer 1000000000000000) (.binary ⟨0x430C6BF526340000⟩)).mpr hvalue.symm
  exact absurd htext (by decide +kernel)

end QuoteBoard.Engine
