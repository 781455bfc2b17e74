/-
# What a fetch makes of its requests

The requests of a fetch are fixed before the first of them is made: they are the batches
of its keys, whatever the source answers. Each of them is made once and has one outcome,
and of two answers that name a key the later one counts. So a request that fails takes
away its own answer and nothing else, and where every key is answered by itself nothing
is left of the way in which the keys were listed and cut.
-/

import QuoteBoard.Fallback.Fetch
import QuoteBoard.Proofs.Fallback.Batch
import QuoteBoard.Proofs.Price.Cache
import Mathlib.Logic.Function.Basic

namespace QuoteBoard.Fallback

/-- What answers requests, or fails: it sees the number of a request and its keys. -/
abbrev Source := Nat → List Key → Option PriceMap

/-- The answers to numbered requests, in order, those that failed left out. -/
def answersTo (source : Source) (requests : List (List Key × Nat)) : List PriceMap :=
  requests.filterMap fun (keys, number) => source number keys

/-- The price of a key in answers of which a later one overrides an earlier one. -/
def lastFound? (answers : List PriceMap) (k : Key) : Option Binary64 :=
  answers.reverse.findSome? (·.get? k)

/-- The source never fails, and its answer names each key that it is asked for, if the key has a
price, and no other. -/
def AnswersEach (price : Key → Option Binary64) (source : Source) : Prop :=
  ∀ number keys, ∃ found, source number keys = some found ∧
    ∀ k, found.get? k = if k ∈ keys then price k else none

section Answers

variable (source : Source) (k : Key)

theorem answersTo_cons (keys : List Key) (number : Nat) (rest : List (List Key × Nat)) :
    answersTo source ((keys, number) :: rest) =
      (source number keys).toList ++ answersTo source rest := by
  cases hanswer : source number keys with
  | none => simp only [answersTo, List.filterMap_cons, hanswer, Option.toList_none, List.nil_append]
  | some found =>
      simp only [answersTo, List.filterMap_cons, hanswer, Option.toList_some,
        List.singleton_append]

theorem lastFound?_append (first second : List PriceMap) :
    lastFound? (first ++ second) k = (lastFound? second k).or (lastFound? first k) := by
  simp only [lastFound?, List.reverse_append, List.findSome?_append]

theorem lastFound?_toList (answer : Option PriceMap) :
    lastFound? answer.toList k = answer.bind (·.get? k) := by
  cases answer with
  | none => rfl
  | some found => simp [lastFound?]

end Answers

section Requests

variable (source : Source) (number : Nat) (found : PriceMap) (requests : List (List Key))

theorem requests_fetchFrom : (fetchFrom source number found requests).requests = requests := by
  induction requests generalizing number found with
  | nil => rfl
  | cons keys rest ih =>
      rw [fetchFrom]
      exact congrArg (keys :: ·) (ih _ _)

theorem outcomes_fetchFrom :
    (fetchFrom source number found requests).outcomes =
      (requests.zipIdx number).map fun (keys, n) => (source n keys).isSome := by
  induction requests generalizing number found with
  | nil => rfl
  | cons keys rest ih =>
      rw [fetchFrom, List.zipIdx_cons, List.map_cons]
      exact congrArg ((source number keys).isSome :: ·) (ih _ _)

/-- What has been found already gives way to the answers that are still to come. -/
theorem get?_prices_fetchFrom (k : Key) :
    (fetchFrom source number found requests).prices.get? k =
      (lastFound? (answersTo source (requests.zipIdx number)) k).or (found.get? k) := by
  induction requests generalizing number found with
  | nil => rfl
  | cons keys rest ih =>
      rw [fetchFrom, List.zipIdx_cons, answersTo_cons, lastFound?_append, lastFound?_toList]
      refine (ih _ _).trans ?_
      cases hanswer : source number keys with
      | none => simp only [Fetch.answered, Option.bind_none, Option.or_none]
      | some answer =>
          simp only [Fetch.answered, TextMap.get?_insertAll_entries, Option.bind_some,
            Option.or_assoc]

/-- The outcome is what a fetch has found when it has gone through all of its requests. -/
theorem prices_fetchFrom :
    (fetchFrom source number found requests).prices =
      (((requests.zipIdx number).map fun (keys, n) => source n keys).foldl Fetch.answered
        ⟨requests, found⟩).found := by
  induction requests generalizing number found with
  | nil => rfl
  | cons keys rest ih =>
      rw [fetchFrom, List.zipIdx_cons, List.map_cons, List.foldl_cons]
      exact ih _ _

/-- With each answer a fetch goes on to the next of its requests. -/
theorem nextBatch?_foldl_answered (f : Fetch) (answers : List (Option PriceMap)) :
    (answers.foldl Fetch.answered f).nextBatch? = f.remaining[answers.length]? := by
  induction answers generalizing f with
  | nil => exact List.head?_eq_getElem?
  | cons answer rest ih =>
      rw [List.foldl_cons, ih, List.length_cons]
      exact List.getElem?_tail

/-- The prices of answers that name each key by itself are those of all the keys together. -/
theorem lastFound?_of_answersEach {price : Key → Option Binary64}
    (h : AnswersEach price source) (k : Key) :
    lastFound? (answersTo source (requests.zipIdx number)) k =
      if k ∈ requests.flatten then price k else none := by
  induction requests generalizing number with
  | nil => rfl
  | cons keys rest ih =>
      obtain ⟨answer, hanswer, hprice⟩ := h number keys
      rw [List.zipIdx_cons, answersTo_cons, lastFound?_append, lastFound?_toList, ih, hanswer,
        Option.bind_some, hprice, List.flatten_cons]
      by_cases hrest : k ∈ rest.flatten <;> by_cases hkeys : k ∈ keys <;>
        cases price k <;> simp [hrest, hkeys]

end Requests

section Fetch

variable (asked : Nat) (source : Source) (keys : List Key)

theorem requests_fetch : (fetch asked source keys).requests = batches asked keys :=
  requests_fetchFrom source 0 TextMap.empty (batches asked keys)

theorem outcomes_fetch :
    (fetch asked source keys).outcomes =
      (batches asked keys).zipIdx.map fun (batch, n) => (source n batch).isSome :=
  outcomes_fetchFrom source 0 TextMap.empty (batches asked keys)

theorem get?_prices_fetch (k : Key) :
    (fetch asked source keys).prices.get? k =
      lastFound? (answersTo source (batches asked keys).zipIdx) k := by
  have hprices := get?_prices_fetchFrom source 0 TextMap.empty (batches asked keys) k
  rwa [TextMap.get?_empty, Option.or_none] at hprices

/-- A fetch asks for a batch when all batches before it have been answered or have failed. -/
theorem nextBatch?_of_answers {n : Nat} (hn : n ≤ (batches asked keys).length) :
    ((((batches asked keys).zipIdx.map fun (batch, m) => source m batch).take n).foldl
      Fetch.answered (.start asked keys)).nextBatch? = (batches asked keys)[n]? := by
  rw [nextBatch?_foldl_answered, List.length_take, List.length_map, List.length_zipIdx,
    Nat.min_eq_left hn]
  rfl

/-- The source with one request made to fail. -/
def failing (number : Nat) : Source := Function.update source number fun _ => none

theorem answersTo_failing (number : Nat) (requests : List (List Key × Nat)) :
    answersTo (failing source number) requests =
      answersTo source (requests.filter fun r => r.2 ≠ number) := by
  rw [answersTo, answersTo, List.filterMap_filter]
  congr 1
  funext r
  by_cases hr : r.2 = number <;> simp [failing, hr]

/-- A failure shows in the outcome of its own request. -/
theorem outcomes_failing (number : Nat) :
    (fetch asked (failing source number) keys).outcomes =
      (fetch asked source keys).outcomes.set number false := by
  rw [outcomes_fetch, outcomes_fetch]
  ext place
  simp only [List.getElem?_map, List.getElem?_set, List.getElem?_zipIdx, Option.map_map,
    Function.comp_def, failing, Function.update_apply, List.length_map, List.length_zipIdx]
  by_cases hplace : number = place
  · subst hplace
    by_cases hlt : number < (batches asked keys).length
    · simp [hlt]
    · simp [hlt]
  · simp [hplace, Ne.symm hplace]

/-- Where each key is answered by itself, the outcome is the price of each key. -/
theorem get?_prices_of_answersEach {price : Key → Option Binary64}
    (h : AnswersEach price source) (k : Key) :
    (fetch asked source keys).prices.get? k = if k ∈ keys then price k else none := by
  rw [get?_prices_fetch, lastFound?_of_answersEach source 0 (batches asked keys) h]
  simp only [(firstSeen_flatten_batches asked keys).mem_iff]

/-- **A fetch in batches.** The requests of a fetch are its keys, each once and in the order in
which they are first listed, cut into full batches of the size in force; a request is made when
those before it have been answered or have failed. Each request has one outcome, in order, and the
prices are those of all answers, a later one overriding an earlier one. A request that fails
changes its own outcome and takes its own answer away. Where each key is answered by itself, the
prices are those of the keys, whatever the size of the batches and the order of the keys. -/
theorem fetch_in_batches :
    let size := effectiveBatchSize asked
    let report := fetch asked source keys
    let answers := report.requests.zipIdx.map fun (batch, number) => source number batch
    size = (if asked < 1 then 1 else if 90 < asked then 90 else asked) ∧
      FirstSeen keys report.requests.flatten ∧
      CutInto size report.requests.flatten report.requests ∧
      (report.requests = [] ↔ keys = []) ∧
      (∀ n ≤ report.requests.length,
        ((answers.take n).foldl Fetch.answered (.start asked keys)).nextBatch? =
          report.requests[n]?) ∧
      (answers.foldl Fetch.answered (.start asked keys)).found = report.prices ∧
      report.outcomes = answers.map Option.isSome ∧
      (∀ k, report.prices.get? k = lastFound? (answersTo source report.requests.zipIdx) k) ∧
      (∀ number,
        let failed := fetch asked (failing source number) keys
        failed.requests = report.requests ∧ failed.outcomes = report.outcomes.set number false ∧
          ∀ k, failed.prices.get? k =
            lastFound? (answersTo source (report.requests.zipIdx.filter (·.2 ≠ number))) k) ∧
      ∀ price, AnswersEach price source →
        (∀ k, report.prices.get? k = if k ∈ keys then price k else none) ∧
          ∀ askedThen sourceThen keysThen, AnswersEach price sourceThen →
            (∀ k, k ∈ keysThen ↔ k ∈ keys) →
              (fetch askedThen sourceThen keysThen).prices = report.prices := by
  intro size report answers
  have hrequests : report.requests = batches asked keys := requests_fetch asked source keys
  have hcut := cutInto_batches asked keys
  have hseen := firstSeen_flatten_batches asked keys
  refine ⟨effectiveBatchSize_eq asked, ?_, ?_, ?_, ?_, ?_, ?_, ?_, ?_, ?_⟩
  · rw [hrequests]
    exact hseen
  · rw [hrequests, hcut.flatten]
    exact hcut
  · rw [hrequests, hcut.eq_nil_iff, ← hcut.flatten, List.eq_nil_iff_forall_not_mem,
      List.eq_nil_iff_forall_not_mem]
    simp only [hseen.mem_iff]
  · intro n hn
    simp only [answers, hrequests] at hn ⊢
    exact nextBatch?_of_answers asked source keys hn
  · simp only [answers, hrequests]
    exact (prices_fetchFrom source 0 TextMap.empty (batches asked keys)).symm
  · simp only [answers, hrequests, List.map_map]
    exact outcomes_fetch asked source keys
  · intro k
    rw [hrequests]
    exact get?_prices_fetch asked source keys k
  · intro number failed
    refine ⟨?_, outcomes_failing asked source keys number, fun k => ?_⟩
    · rw [hrequests]
      exact requests_fetch asked (failing source number) keys
    · rw [hrequests, ← answersTo_failing]
      exact get?_prices_fetch asked (failing source number) keys k
  · intro price hprice
    refine ⟨get?_prices_of_answersEach asked source keys hprice, ?_⟩
    intro askedThen sourceThen keysThen hthen hkeys
    apply TextMap.ext_get?
    intro k
    rw [get?_prices_of_answersEach askedThen sourceThen keysThen hthen,
      get?_prices_of_answersEach asked source keys hprice]
    simp only [hkeys]

end Fetch

/-- A source that answers with the prices that it knows answers each key by itself. -/
theorem answersEach_resident (known : Cache) :
    AnswersEach known.get? fun _ keys => some (known.resident keys) :=
  fun _ keys => ⟨_, rfl, known.get?_resident keys⟩

/-- A source that knows the prices of two keys is asked for three, one of them listed twice, in
batches of two, and again in another order and in one batch. -/
theorem fetch_in_batches_resident :
    let known : Cache := ⟨TextMap.ofList [("A", ⟨0x4024000000000000⟩), ("B", ⟨0⟩)]⟩
    let source : Source := fun _ keys => some (known.resident keys)
    AnswersEach known.get? source ∧ (∀ k, k ∈ ["C", "A", "B"] ↔ k ∈ ["B", "A", "B", "C"]) ∧
      (fetch 2 source ["B", "A", "B", "C"]).requests.flatten.length = 3 ∧
      (fetch 90 source ["C", "A", "B"]).prices = (fetch 2 source ["B", "A", "B", "C"]).prices := by
  intro known source
  have hsource : AnswersEach known.get? source := answersEach_resident known
  have hkeys : ∀ k, k ∈ ["C", "A", "B"] ↔ k ∈ ["B", "A", "B", "C"] := by
    intro k
    simp only [List.mem_cons, List.not_mem_nil, or_false]
    tauto
  have hlength : (fetch 2 source ["B", "A", "B", "C"]).requests.flatten.length = 3 := by
    decide +kernel
  obtain ⟨-, -, -, -, -, -, -, -, -, hprices⟩ := fetch_in_batches 2 source ["B", "A", "B", "C"]
  exact ⟨hsource, hkeys, hlength,
    (hprices known.get? hsource).2 90 source ["C", "A", "B"] hsource hkeys⟩

end QuoteBoard.Fallback
