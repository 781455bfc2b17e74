/-
# The candidate keys of a row

A row names an exchange if its exchange field is the code of one, blanks around it and the case of
its letters left aside. The keys without a strike follow from that alone (`SymbolKeys`); a strike
adds one key at the end. No key is listed twice, although the key of a contract puts its parts
together without anything between them and may have any text for its segment: it goes on where
another key of the same symbol ends, so the two could agree only if a segment ended inside one of
those known, and there it would find a colon that no known segment has.
-/

import QuoteBoard.Instrument.Candidates
import QuoteBoard.Proofs.Lists
import QuoteBoard.Proofs.Text.Padding

namespace QuoteBoard

open Text (SameCode SameText present trim trimmed)

namespace Identity

variable (row : Identity)

/-- The exchange field is the code of this exchange, up to blanks around it and the case of its
letters. -/
def Names (e : Exchange) : Prop := SameCode (row.exchange.getD "") e.code

/-- The keys of a row without a strike: that of the underlying and, where the exchange lists
derivatives, that of the derivatives, if the row names an exchange, and otherwise those of the four
standard segments. -/
inductive SymbolKeys : List Key → Prop
  | nseCash : row.Names .nseCash → SymbolKeys [scopedKey "NSE" (trim row.symbol)]
  | bseCash : row.Names .bseCash → SymbolKeys [scopedKey "BSE" (trim row.symbol)]
  | nseDerivatives : row.Names .nseDerivatives →
      SymbolKeys [scopedKey "NSE" (trim row.symbol), scopedKey "NFO" (trim row.symbol)]
  | bseDerivatives : row.Names .bseDerivatives →
      SymbolKeys [scopedKey "BSE" (trim row.symbol), scopedKey "BFO" (trim row.symbol)]
  | unknown : (∀ e, ¬ row.Names e) →
      SymbolKeys [scopedKey "NSE" (trim row.symbol), scopedKey "BSE" (trim row.symbol),
        scopedKey "NFO" (trim row.symbol), scopedKey "BFO" (trim row.symbol)]

/-- The segment of the contract of a row: that of the derivatives of its exchange, any other code in
capitals, and without a code that of the exchange which is assumed. -/
inductive ContractSegment : String → Prop
  | nseDerivatives : row.Names .nseDerivatives → ContractSegment "NFO"
  | bseDerivatives : row.Names .bseDerivatives → ContractSegment "BFO"
  | code : trimmed row.exchange ≠ "" → ¬ row.Names .nseDerivatives → ¬ row.Names .bseDerivatives →
      ContractSegment (trimmed row.exchange).toUpper
  | assumed : trimmed row.exchange = "" → ContractSegment "NFO"

/-- What comes behind the segment in the key of a contract. -/
def contractText : String :=
  trim row.symbol ++ trimmed row.expiry ++ trimmed row.strike ++ trimmed row.optionType

/-- What the candidates of a row are to be: different keys, at least one of them, which are those of
its symbol; a strike adds the key of the contract at the end and changes nothing before it. -/
structure WellListed (keys : List Key) : Prop where
  ne_nil : keys ≠ []
  nodup : keys.Nodup
  of_no_strike : trimmed row.strike = "" → row.SymbolKeys keys
  of_strike : trimmed row.strike ≠ "" → ∃ segment, row.ContractSegment segment ∧
    keys = ({ row with strike := none } : Identity).candidates ++
      [scopedKey segment row.contractText]

/-- Two rows spell the same fields: blanks around them do not matter, nor does the case of the
exchange, and a field that is not there is as good as an empty one. -/
structure Respells (a b : Identity) : Prop where
  exchange : SameCode (a.exchange.getD "") (b.exchange.getD "")
  symbol : SameText a.symbol b.symbol
  strike : SameText (a.strike.getD "") (b.strike.getD "")
  expiry : SameText (a.expiry.getD "") (b.expiry.getD "")
  optionType : SameText (a.optionType.getD "") (b.optionType.getD "")

end Identity

/-! ## The exchange of a row -/

namespace Exchange

theorem ofCode?_eq_some_iff {code : String} {e : Exchange} :
    ofCode? code = some e ↔ (trim code).toUpper = e.code := by
  unfold ofCode?
  split <;> cases e <;> simp_all [Exchange.code]

theorem trim_code (e : Exchange) : (trim e.code).toUpper = e.code := by
  cases e <;> decide +kernel

end Exchange

namespace Identity

variable (row : Identity)

theorem names_iff {e : Exchange} : row.Names e ↔ (trimmed row.exchange).toUpper = e.code := by
  rw [Names, Text.sameCode_iff, e.trim_code]
  rfl

/-- A blank field names no exchange. -/
theorem not_names_of_blank (h : trimmed row.exchange = "") (e : Exchange) : ¬ row.Names e := by
  rw [names_iff, h, Text.toUpper_eq_empty_iff.mpr rfl]
  cases e <;> decide

/-- The code of a row stands for the exchange that the row names. -/
theorem ofCode?_trimmed_iff {e : Exchange} :
    Exchange.ofCode? (trimmed row.exchange) = some e ↔ row.Names e := by
  rw [Exchange.ofCode?_eq_some_iff, Text.trim_trimmed, names_iff]

theorem exchange?_eq_some_iff {e : Exchange} :
    row.exchangeCode?.bind Exchange.ofCode? = some e ↔ row.Names e := by
  by_cases hblank : trimmed row.exchange = ""
  · rw [exchangeCode?, Text.present_of_blank hblank]
    exact iff_of_false nofun (row.not_names_of_blank hblank e)
  · rw [exchangeCode?, Text.present_of_not_blank hblank, Option.bind_some, ofCode?_trimmed_iff]

theorem exchange?_eq_none_iff :
    row.exchangeCode?.bind Exchange.ofCode? = none ↔ ∀ e, ¬ row.Names e := by
  simp only [Option.eq_none_iff_forall_ne_some, ne_eq, exchange?_eq_some_iff]

/-- A row names one exchange at most. -/
theorem Names.unique {row : Identity} {e e' : Exchange} (h : row.Names e) (h' : row.Names e') :
    e = e' := by
  rw [← ofCode?_trimmed_iff] at h h'
  exact Option.some.inj (h.symm.trans h')

/-! ## The keys without a strike and the key of the contract -/

theorem symbolKeys_cases : row.SymbolKeys row.symbolKeys := by
  unfold symbolKeys
  cases hexchange : row.exchangeCode?.bind Exchange.ofCode? with
  | none => exact .unknown (row.exchange?_eq_none_iff.mp hexchange)
  | some e =>
      have hnames := row.exchange?_eq_some_iff.mp hexchange
      cases e with
      | nseCash => exact .nseCash hnames
      | bseCash => exact .bseCash hnames
      | nseDerivatives => exact .nseDerivatives hnames
      | bseDerivatives => exact .bseDerivatives hnames

theorem optionSegment_of_not_blank (h : trimmed row.exchange ≠ "") :
    optionSegment row.exchange =
      ((Exchange.ofCode? (trimmed row.exchange)).bind Exchange.derivativesSegment?).getD
        (trimmed row.exchange).toUpper := by
  simp only [optionSegment, Text.present_of_not_blank h]
  cases (Exchange.ofCode? (trimmed row.exchange)).bind Exchange.derivativesSegment? <;> rfl

theorem contractSegment_optionSegment : row.ContractSegment (optionSegment row.exchange) := by
  by_cases hblank : trimmed row.exchange = ""
  · rw [optionSegment, Text.present_of_blank hblank]
    exact .assumed hblank
  · rw [row.optionSegment_of_not_blank hblank]
    cases hexchange : Exchange.ofCode? (trimmed row.exchange) with
    | none =>
        have hnames (e : Exchange) : ¬ row.Names e := fun he => by
          rw [row.ofCode?_trimmed_iff.mpr he] at hexchange
          cases hexchange
        exact .code hblank (hnames _) (hnames _)
    | some e =>
        have hnames := row.ofCode?_trimmed_iff.mp hexchange
        have hother {e' : Exchange} (hne : e ≠ e') : ¬ row.Names e' := fun he' =>
          hne (hnames.unique he')
        cases e with
        | nseCash | bseCash => exact .code hblank (hother nofun) (hother nofun)
        | nseDerivatives => exact .nseDerivatives hnames
        | bseDerivatives => exact .bseDerivatives hnames

/-- A row has the key of a contract exactly if its strike is not blank. -/
theorem optionKey?_eq :
    row.optionKey? = if trimmed row.strike = "" then none
      else some (scopedKey (optionSegment row.exchange) row.contractText) := by
  have hsegment : optionSegment row.exchangeCode? = optionSegment row.exchange := by
    rw [optionSegment, optionSegment, exchangeCode?, Text.present_present]
  unfold optionKey? strikeText?
  split
  · next hblank => rw [Text.present_of_blank hblank, Option.map_none]
  · next hblank =>
      rw [Text.present_of_not_blank hblank, Option.map_some, hsegment, Text.getD_present,
        Text.getD_present, contractText]

theorem candidates_of_no_strike (h : trimmed row.strike = "") :
    row.candidates = row.symbolKeys := by
  rw [candidates, optionKey?_eq, if_pos h, Option.toList_none, List.append_nil]

theorem candidates_of_strike (h : trimmed row.strike ≠ "") :
    row.candidates = row.symbolKeys ++
      [scopedKey (optionSegment row.exchange) row.contractText] := by
  rw [candidates, optionKey?_eq, if_neg h, Option.toList_some]

/-! ## Different keys -/

theorem toList_scopedKey (segment symbol : String) :
    (scopedKey segment symbol).toList = segment.toList ++ ':' :: symbol.toList := by
  simp [scopedKey]

/-- Keys of one symbol differ as their segments do. -/
theorem scopedKey_injective (symbol : String) : Function.Injective (scopedKey · symbol) := by
  intro first second heq
  have hlist := congrArg String.toList heq
  simp only [toList_scopedKey] at hlist
  exact String.toList_inj.mp (List.append_cancel_right hlist)

/-- A key that goes on behind the symbol differs from one that does not, whatever its segment is, as
long as the other segment has no colon. -/
theorem scopedKey_ne_of_longer {segment symbol other text : String}
    (hsegment : ':' ∉ segment.toList) (hlonger : symbol.toList.length < text.toList.length) :
    scopedKey segment symbol ≠ scopedKey other text := by
  intro heq
  have hlist := congrArg String.toList heq
  rw [toList_scopedKey, toList_scopedKey] at hlist
  exact append_cons_ne hsegment hlonger hlist

/-- The keys without a strike are those of different segments, none of which has a colon. -/
theorem SymbolKeys.segments {row : Identity} {keys : List Key} (h : row.SymbolKeys keys) :
    ∃ segments : List String, keys = segments.map (scopedKey · (trim row.symbol)) ∧
      segments ≠ [] ∧ segments.Nodup ∧ ∀ s ∈ segments, ':' ∉ s.toList := by
  cases h with
  | nseCash => exact ⟨["NSE"], rfl, List.cons_ne_nil _ _, by decide⟩
  | bseCash => exact ⟨["BSE"], rfl, List.cons_ne_nil _ _, by decide⟩
  | nseDerivatives => exact ⟨["NSE", "NFO"], rfl, List.cons_ne_nil _ _, by decide⟩
  | bseDerivatives => exact ⟨["BSE", "BFO"], rfl, List.cons_ne_nil _ _, by decide⟩
  | unknown => exact ⟨["NSE", "BSE", "NFO", "BFO"], rfl, List.cons_ne_nil _ _, by decide⟩

/-- The key of a contract goes on behind the symbol. -/
theorem length_lt_contractText (h : trimmed row.strike ≠ "") :
    (trim row.symbol).toList.length < row.contractText.toList.length := by
  have hstrike : (trimmed row.strike).toList.length ≠ 0 := by
    rwa [ne_eq, List.length_eq_zero_iff, String.toList_eq_nil_iff]
  simp only [contractText, String.toList_append, List.length_append]
  omega

/-- **No candidate is listed twice.** -/
theorem nodup_candidates : row.candidates.Nodup := by
  obtain ⟨segments, hkeys, -, hdistinct, hcolon⟩ := row.symbolKeys_cases.segments
  have hsymbol : row.symbolKeys.Nodup := by
    rw [hkeys]
    exact hdistinct.map (scopedKey_injective _)
  by_cases hstrike : trimmed row.strike = ""
  · rwa [row.candidates_of_no_strike hstrike]
  · rw [row.candidates_of_strike hstrike]
    refine hsymbol.append (List.nodup_singleton _) ?_
    rw [List.disjoint_singleton, hkeys]
    intro hmem
    obtain ⟨segment, hsegment, heq⟩ := List.mem_map.mp hmem
    exact scopedKey_ne_of_longer (hcolon segment hsegment)
      (row.length_lt_contractText hstrike) heq

theorem candidates_ne_nil : row.candidates ≠ [] := by
  obtain ⟨segments, hkeys, hsegments, -⟩ := row.symbolKeys_cases.segments
  rw [candidates, hkeys]
  simp [hsegments]

/-- **The candidates of a row are those that they are to be.** -/
theorem wellListed_candidates : row.WellListed row.candidates where
  ne_nil := row.candidates_ne_nil
  nodup := row.nodup_candidates
  of_no_strike hstrike := by
    rw [row.candidates_of_no_strike hstrike]
    exact row.symbolKeys_cases
  of_strike hstrike := by
    have hwithout : ({ row with strike := none } : Identity).candidates = row.symbolKeys :=
      candidates_of_no_strike { row with strike := none } rfl
    refine ⟨_, row.contractSegment_optionSegment, ?_⟩
    rw [hwithout, row.candidates_of_strike hstrike]

/-! ## Other spellings -/

section Respelling

variable {a b : Identity}

theorem names_iff_of_respells (h : Respells a b) (e : Exchange) : a.Names e ↔ b.Names e := by
  rw [names_iff, names_iff, trimmed, trimmed, Text.sameCode_iff.mp h.exchange]

theorem exchange?_eq_of_respells (h : Respells a b) :
    a.exchangeCode?.bind Exchange.ofCode? = b.exchangeCode?.bind Exchange.ofCode? := by
  ext e
  rw [exchange?_eq_some_iff, exchange?_eq_some_iff, names_iff_of_respells h]

theorem optionSegment_eq_of_respells (h : Respells a b) :
    optionSegment a.exchange = optionSegment b.exchange := by
  have hcode : (trimmed a.exchange).toUpper = (trimmed b.exchange).toUpper :=
    Text.sameCode_iff.mp h.exchange
  have hblank : trimmed a.exchange = "" ↔ trimmed b.exchange = "" := by
    rw [← Text.toUpper_eq_empty_iff, hcode, Text.toUpper_eq_empty_iff]
  have hofCode? :
      Exchange.ofCode? (trimmed a.exchange) = Exchange.ofCode? (trimmed b.exchange) := by
    ext e
    rw [ofCode?_trimmed_iff, ofCode?_trimmed_iff, names_iff_of_respells h]
  by_cases ha : trimmed a.exchange = ""
  · rw [optionSegment, optionSegment, Text.present_of_blank ha,
      Text.present_of_blank (hblank.mp ha)]
  · rw [a.optionSegment_of_not_blank ha, b.optionSegment_of_not_blank (mt hblank.mpr ha), hofCode?,
      hcode]

/-- **The candidates do not depend on how a row is spelled.** -/
theorem candidates_eq_of_respells (h : Respells a b) : a.candidates = b.candidates := by
  have hsymbol : trim a.symbol = trim b.symbol := Text.sameText_iff.mp h.symbol
  have hstrike : trimmed a.strike = trimmed b.strike := Text.sameText_iff.mp h.strike
  have hexpiry : trimmed a.expiry = trimmed b.expiry := Text.sameText_iff.mp h.expiry
  have hoptionType : trimmed a.optionType = trimmed b.optionType :=
    Text.sameText_iff.mp h.optionType
  have hkeys : a.symbolKeys = b.symbolKeys := by
    rw [symbolKeys, symbolKeys, exchange?_eq_of_respells h, hsymbol]
  rw [candidates, candidates, hkeys, optionKey?_eq, optionKey?_eq, contractText, contractText,
    optionSegment_eq_of_respells h, hsymbol, hstrike, hexpiry, hoptionType]

end Respelling

end Identity

end QuoteBoard
