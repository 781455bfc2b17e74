/-
# Answers and messages

An answer of the price service and a batch map of the feed are written alike, but they are
read by different readers: the answer strictly, from the document as it is written, and the
message leniently, from its value. Where the strict reader succeeds on a document that could
be a message, the lenient one finds the same prices in it: a known member occurs once, so
either reader finds it, and of two quotes for a key both take the later one.
-/

import QuoteBoard.Backend.Quotes
import QuoteBoard.Proofs.Feed.Ticks
import QuoteBoard.Proofs.Json.Document

namespace QuoteBoard.Backend

open QuoteBoard.Json (Document Spelled Value Numeral field? Reads Alongside)

/-! ## Known members -/

section Members

variable {room : Nat} {known : List String}

/-- A member is left alone if its name is not known; otherwise it is new, and it is kept. -/
theorem knownMembers?_cons {seen : List String} {n : String} {d : Document}
    {rest : List (Spelled × Document)} {ks : List (String × Document)}
    (h : knownMembers? known seen ((some n, d) :: rest) = some ks) :
    (n ∉ known ∧ knownMembers? known seen rest = some ks) ∨
      n ∈ known ∧ n ∉ seen ∧
        ∃ more, knownMembers? known (n :: seen) rest = some more ∧ ks = (n, d) :: more := by
  rw [knownMembers?] at h
  split at h
  · next hknown =>
      split at h
      · cases h
      · next hseen =>
          obtain ⟨more, hmore, rfl⟩ := Option.map_eq_some_iff.mp h
          exact Or.inr ⟨by simpa using hknown, by simpa using hseen, more, hmore, rfl⟩
  · next hunknown => exact Or.inl ⟨by simpa using hunknown, h⟩

/-- A known name that has been seen does not occur again. -/
theorem not_mem_names_of_seen (name : String) {seen : List String} {ms : List (Spelled × Document)}
    {vs : List (String × Value)} {ks : List (String × Document)}
    (hreads : List.Forall₂ (Reads room) ms vs) (hks : knownMembers? known seen ms = some ks)
    (hknown : name ∈ known) (hseen : name ∈ seen) : name ∉ vs.map Prod.fst := by
  induction hreads generalizing seen ks with
  | nil => exact List.not_mem_nil
  | @cons m p ms vs hm _ ih =>
      obtain ⟨_, d⟩ := m
      obtain ⟨n, v⟩ := p
      obtain ⟨rfl, -⟩ := hm
      rw [List.map_cons, List.mem_cons, not_or]
      rcases knownMembers?_cons hks with ⟨hunknown, hks⟩ | ⟨-, hnew, more, hmore, -⟩
      · exact ⟨fun heq => hunknown (heq ▸ hknown), ih hks hseen⟩
      · exact ⟨fun heq => hnew (heq ▸ hseen), ih hmore (List.mem_cons_of_mem n hseen)⟩

/-- Under a known name its only member is found, be it by documents or by values. -/
theorem rel_lookup_knownMembers? (name : String) {seen : List String}
    {ms : List (Spelled × Document)} {vs : List (String × Value)} {ks : List (String × Document)}
    (hreads : List.Forall₂ (Reads room) ms vs) (hks : knownMembers? known seen ms = some ks)
    (hknown : name ∈ known) (hseen : name ∉ seen) :
    Option.Rel (fun d v => d.value? room = some v) (ks.lookup name) (vs.reverse.lookup name) := by
  induction hreads generalizing seen ks with
  | nil =>
      cases hks
      exact .none
  | @cons m p ms vs hm hrest ih =>
      obtain ⟨_, d⟩ := m
      obtain ⟨n, v⟩ := p
      obtain ⟨rfl, hv⟩ := hm
      rw [List.reverse_cons, List.lookup_append, TextMap.lookup_cons_ite, List.lookup_nil]
      rcases knownMembers?_cons hks with ⟨hunknown, hks⟩ | ⟨-, -, more, hmore, rfl⟩
      · have hne : name ≠ n := fun heq => hunknown (heq ▸ hknown)
        rw [if_neg hne, Option.or_none]
        exact ih hks hseen
      · rw [TextMap.lookup_cons_ite]
        by_cases heq : name = n
        · subst heq
          have hlater : vs.reverse.lookup name = none := by
            rw [TextMap.lookup_eq_none_iff_not_mem, List.map_reverse, List.mem_reverse]
            exact not_mem_names_of_seen name hrest hmore hknown List.mem_cons_self
          rw [hlater, Option.none_or, if_pos rfl, if_pos rfl]
          exact .some hv
        · rw [if_neg heq, if_neg heq, Option.or_none]
          exact ih hmore (List.not_mem_cons_of_ne_of_not_mem heq hseen)

end Members

/-! ## Quotes -/

/-- The price of a quote is the price that its value holds as an entry of a batch map. -/
theorem entryPrice?_of_readQuote? {room : Nat} {d : Document} {quote : List (String × Value)}
    {price : Option Binary64} (hvalue : d.value? room = some (.object quote))
    (hread : readQuote? d = some price) :
    Feed.entryPrice? (.object quote) = price.filter Binary64.isFinite := by
  obtain ⟨less, ms, vs, rfl, hreads, rfl⟩ := Json.object_of_value? hvalue
  rw [readQuote?] at hread
  simp only [Option.bind_eq_bind, Option.bind_eq_some_iff, members?] at hread
  obtain ⟨ks, hks, hread⟩ := hread
  have hrel := rel_lookup_knownMembers? "last_price" hreads hks (List.mem_singleton.mpr rfl)
    List.not_mem_nil
  rw [Feed.entryPrice?, Feed.present?_bind_price?, Json.field?_ofList]
  unfold optional? at hread
  generalize ks.lookup "last_price" = found at hread hrel
  generalize vs.reverse.lookup "last_price" = value at hrel ⊢
  cases hrel with
  | none =>
      cases hread
      rfl
  | @some member v hmember =>
      cases member with
      | null =>
          cases hread
          cases hmember
          rfl
      | number n =>
          obtain ⟨number, hnumber, rfl⟩ := Option.map_eq_some_iff.mp hread
          obtain ⟨x, hx, rfl⟩ := Option.map_eq_some_iff.mp hnumber
          rw [Document.value?, hx] at hmember
          cases hmember
          rfl
      | boolean | text | array | object => cases hread

/-- Quotes are read member by member. -/
theorem forall₂_of_readQuotes? {ms : List (Spelled × Document)}
    {quotes : List (Key × Option Binary64)} (h : readQuotes? (.object ms) = some quotes) :
    List.Forall₂ (fun m q => m.1 = some q.1 ∧ readQuote? m.2 = some q.2) ms quotes := by
  rw [readQuotes?] at h
  induction ms generalizing quotes with
  | nil =>
      cases h
      exact .nil
  | cons m rest ih =>
      obtain ⟨name, d⟩ := m
      simp only [List.mapM_cons, Option.bind_eq_bind, Option.bind_eq_some_iff, Option.pure_def,
        Option.some.injEq] at h
      obtain ⟨_, ⟨name, rfl, price, hprice, rfl⟩, more, hmore, rfl⟩ := h
      exact .cons ⟨rfl, hprice⟩ (ih hmore)

/-- Quotes and the values of the same members stand side by side. -/
theorem alongside_of_readQuotes? {room : Nat} {ms : List (Spelled × Document)}
    {vs : List (String × Value)} {quotes : List (Key × Option Binary64)}
    (hreads : List.Forall₂ (Reads room) ms vs) (h : readQuotes? (.object ms) = some quotes) :
    Alongside (fun v price => ∃ d : Document, d.value? room = some v ∧ readQuote? d = some price)
      vs quotes := by
  have hquotes := forall₂_of_readQuotes? h
  clear h
  induction hreads generalizing quotes with
  | nil =>
      cases hquotes
      exact .nil
  | @cons m p ms vs hm _ ih =>
      cases hquotes with
      | @cons _ q _ quotes hq hquotes =>
          have hkey : p.1 = q.1 := Option.some.inj (hm.1.symm.trans hq.1)
          exact .cons ⟨hkey, m.2, hm.2, hq.2⟩ (ih hquotes)

/-- The batch map of some quotes holds the finite prices of the quotes. -/
theorem batchPrices_eq {vs : List (String × Value)} {quotes : List (Key × Option Binary64)}
    {room : Nat}
    (hquotes : Alongside
      (fun v price => ∃ d : Document, d.value? room = some v ∧ readQuote? d = some price) vs quotes)
    (hobjects : ∀ q ∈ (TextMap.ofList vs).entries, ∃ fields, q.2 = .object fields) :
    Feed.batchPrices (TextMap.ofList vs).entries =
      TextMap.ofList ((TextMap.ofList quotes).entries.filterMap fun q =>
        (q.2.filter Binary64.isFinite).map (q.1, ·)) := by
  apply TextMap.ext_get?
  intro k
  have hlatest := TextMap.get?_ofList_filterMap (TextMap.ofList quotes).nodup_keys
    (fun price => price.filter Binary64.isFinite) k
  rw [Feed.get?_batchPrices, hlatest]
  change _ = ((TextMap.ofList quotes).get? k).bind _
  have hrel := hquotes.reverse.lookup k
  rw [← TextMap.get?_ofList, ← TextMap.get?_ofList] at hrel
  cases hvalue : (TextMap.ofList vs).get? k with
  | none =>
      rw [hvalue] at hrel
      cases hprice : (TextMap.ofList quotes).get? k with
      | none => rfl
      | some price => rw [hprice] at hrel; cases hrel
  | some v =>
      obtain ⟨fields, hfields⟩ := hobjects (k, v) (TextMap.get?_eq_some_iff_mem.mp hvalue)
      rw [hvalue] at hrel
      cases hprice : (TextMap.ofList quotes).get? k with
      | none => rw [hprice] at hrel; cases hrel
      | some price =>
          rw [hprice] at hrel
          cases hrel with
          | some hread =>
              obtain ⟨d, hd, hquote⟩ := hread
              change v = .object fields at hfields
              subst hfields
              exact entryPrice?_of_readQuote? hd hquote

/-! ## Answers -/

theorem quotes_of_readAnswer? {ms : List (Spelled × Document)} {a : QuoteAnswer}
    (h : readAnswer? (.object ms) = some a) :
    ∃ ks, knownMembers? ["status", "data", "message"] [] ms = some ks ∧
      optional? readQuotes? ks "data" = some a.quotes := by
  simp only [readAnswer?, Option.bind_eq_bind, Option.bind_eq_some_iff, Option.pure_def] at h
  obtain ⟨ks, hks, h⟩ := h
  refine ⟨ks, hks, ?_⟩
  split at h <;>
    · simp only [Option.bind_eq_some_iff, Option.some.injEq] at h
      obtain ⟨_, -, quotes, hquotes, _, -, rfl⟩ := h
      exact hquotes

/-- The prices of a usable answer. -/
theorem prices_eq_of_ok {a : QuoteAnswer} {prices : PriceMap} (h : a.prices = .ok prices) :
    prices = TextMap.ofList ((TextMap.ofList (a.quotes.getD [])).entries.filterMap fun q =>
      (q.2.filter Binary64.isFinite).map (q.1, ·)) := by
  unfold QuoteAnswer.prices at h
  split at h
  · exact (Except.ok.inj h).symm
  · cases h

/-! ## Messages -/

/-- Without a price of its own an object is no tick. -/
theorem classifyObject?_of_no_price {fields : List (String × Value)}
    (hltp : field? fields "ltp" = none) (hlast : field? fields "last_price" = none) :
    Feed.classifyObject? fields =
      match field? fields "data" with
      | some (.object data) => some (.batchMap, .prices (Feed.batchPrices data))
      | _ => none := by
  have habsent : ∀ name, field? fields name = none → Feed.present? fields name = none := by
    intro name hname
    rw [Feed.present?, hname]
  have hscrip : Feed.scripTick? fields = none := by
    rw [Feed.scripTick?, habsent "ltp" hltp, habsent "last_price" hlast]
    cases (field? fields "scripCode").bind Feed.scripCode? <;> rfl
  have hsingle : Feed.singleTick? fields = none := by
    rw [Feed.singleTick?, habsent "last_price" hlast]
    split
    · split <;> rfl
    · rfl
  cases hdata : field? fields "data" with
  | none => simp only [Feed.classifyObject?, hscrip, hsingle, hdata]
  | some v => cases v <;> simp only [Feed.classifyObject?, hscrip, hsingle, hdata]

/-- **What the strict reader accepts, the lenient one reads alike.** Take a text that spells an
object without a price of its own, whose `data` is missing, null or an object of objects. If it is
read as an answer with some prices, then as a message it is a batch map of exactly these prices,
or, without `data`, it is not recognized and there are no prices. -/
theorem message_agrees_with_answer {text : String} {fields : List (String × Value)}
    {prices : PriceMap} (hobject : Value.ofText? text = some (.object fields))
    (hltp : field? fields "ltp" = none) (hlast : field? fields "last_price" = none)
    (hdata : ∀ v, field? fields "data" = some v → v = .null ∨
      ∃ data, v = .object data ∧ ∀ q ∈ data, ∃ quote, q.2 = .object quote)
    (hprices : quotedPrices text = .ok prices) :
    (∀ data, field? fields "data" = some (.object data) →
      Feed.read text = .ok (.batchMap, .prices prices)) ∧
    (field? fields "data" = none ∨ field? fields "data" = some .null →
      Feed.read text = .error .unrecognized ∧ prices = TextMap.empty) := by
  have hread : Feed.read text =
      (Feed.classifyObject? fields).elim (.error .unrecognized) .ok := by
    cases hclass : Feed.classifyObject? fields <;>
      simp only [Feed.read, hobject, Feed.classify?, hclass, Option.elim]
  rw [hread, classifyObject?_of_no_price hltp hlast]
  obtain ⟨d, hd, hvalue⟩ := Option.bind_eq_some_iff.mp hobject
  obtain ⟨less, ms, vs, rfl, hreads, rfl⟩ := Json.object_of_value? hvalue
  rw [quotedPrices, hd, Option.bind_some] at hprices
  cases hanswer : readAnswer? (.object ms) with
  | none => rw [hanswer] at hprices; cases hprices
  | some a =>
      rw [hanswer] at hprices
      obtain ⟨ks, hks, hquotes⟩ := quotes_of_readAnswer? hanswer
      have hrel := rel_lookup_knownMembers? "data" hreads hks (by decide) List.not_mem_nil
      have hmade := prices_eq_of_ok hprices
      rw [← Json.field?_ofList] at hrel
      unfold optional? at hquotes
      generalize field? (TextMap.ofList vs).entries "data" = value at hrel hdata ⊢
      generalize ks.lookup "data" = member at hrel hquotes
      cases hrel with
      | none =>
          rw [← Option.some.inj hquotes] at hmade
          exact ⟨fun _ hobject => absurd hobject (by simp), fun _ => ⟨rfl, hmade⟩⟩
      | @some member v hmember =>
          cases member with
          | null =>
              cases hmember
              rw [← Option.some.inj hquotes] at hmade
              exact ⟨fun _ hobject => absurd hobject (by simp), fun _ => ⟨rfl, hmade⟩⟩
          | object members =>
              obtain ⟨quotes, hmembers, hsome⟩ := Option.map_eq_some_iff.mp hquotes
              rw [← hsome, Option.getD_some] at hmade
              rcases hdata v rfl with rfl | ⟨data, rfl, hobjects⟩
              · cases less <;> simp [Document.value?, Json.ofMembers_eq] at hmember
              · obtain ⟨inner, _, values, hsame, hvalues, rfl⟩ := Json.object_of_value? hmember
                cases hsame
                rw [hmade, ← batchPrices_eq (alongside_of_readQuotes? hvalues hmembers) hobjects]
                exact ⟨fun _ _ => rfl, fun hnull => by rcases hnull with h | h <;> cases h⟩
          | boolean | number | text | array => cases hquotes

/-- Whether a text is an object without a price of its own whose `data` is an object of objects. -/
def spellsQuotes (text : String) : Bool :=
  match Value.ofText? text with
  | some (.object fields) =>
      (field? fields "ltp").isNone && (field? fields "last_price").isNone &&
        match field? fields "data" with
        | some (.object data) => data.all fun q => match q.2 with
          | .object _ => true
          | _ => false
        | _ => false
  | _ => false

theorem fields_of_spellsQuotes {text : String} (h : spellsQuotes text) :
    ∃ fields data, Value.ofText? text = some (.object fields) ∧ field? fields "ltp" = none ∧
      field? fields "last_price" = none ∧ field? fields "data" = some (.object data) ∧
        ∀ q ∈ data, ∃ quote, q.2 = .object quote := by
  unfold spellsQuotes at h
  split at h
  · next fields hobject =>
      simp only [Bool.and_eq_true, Option.isNone_iff_eq_none] at h
      obtain ⟨⟨hltp, hlast⟩, hdata⟩ := h
      split at hdata
      · next data hfield =>
          refine ⟨fields, data, hobject, hltp, hlast, hfield, fun q hq => ?_⟩
          have hquote := List.all_eq_true.mp hdata q hq
          split at hquote
          · next quote heq => exact ⟨quote, heq⟩
          · cases hquote
      · cases hdata
  · cases h

/-- An answer with two quotes for one key, a quote without a price, and a code of its own. -/
def repeatedText : String :=
  "\x7b\"status\": \"success\", \"scripCode\": 7, \"data\": \x7b\"A\": \x7b\"last_price\": 1\x7d" ++
    ", \"B\": \x7b\x7d, \"A\": \x7b\"last_price\": 2.5, \"lots\": [1]\x7d\x7d\x7d"

theorem message_agrees_with_answer_repeated :
    quotedPrices repeatedText = .ok (TextMap.ofList [("A", ⟨0x4004000000000000⟩)]) ∧
      Feed.read repeatedText =
        .ok (.batchMap, .prices (TextMap.ofList [("A", ⟨0x4004000000000000⟩)])) := by
  have hprices : quotedPrices repeatedText =
      .ok (TextMap.ofList [("A", ⟨0x4004000000000000⟩)]) := by decide +kernel
  obtain ⟨fields, data, hobject, hltp, hlast, hdata, hquotes⟩ :=
    fields_of_spellsQuotes (show spellsQuotes repeatedText by decide +kernel)
  refine ⟨hprices, (message_agrees_with_answer hobject hltp hlast (fun v hv => ?_) hprices).1
    data hdata⟩
  cases hdata.symm.trans hv
  exact Or.inr ⟨data, rfl, hquotes⟩

end QuoteBoard.Backend
