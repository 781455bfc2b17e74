/-
# How far look-ups go

A failure passes if no answer arrives, if the server is asked too often, or if it has
failed. A look-up of rows is sent again as long as failures pass and the client allows it,
and comes to what its last attempt comes to. The prices of a batch and the contract of an
instrument are asked for once. For prices this is meant: the next sweep asks again. For
contracts it is not: what the settings allow for look-ups has no effect on them, and a server
that fails for a moment makes an instrument unknown.
-/

import QuoteBoard.Backend.Line
import Mathlib.Tactic.SplitIfs

namespace QuoteBoard.Backend

open QuoteBoard.Dashboard (Table TradeRow)
open QuoteBoard.Json (Value)

/-- The outcome is a failure that may pass. -/
def Outcome.IsPassing : Outcome → Prop
  | .lost _ => True
  | .answered code _ => code = 429 ∨ 500 ≤ code ∧ code < 600

instance : DecidablePred Outcome.IsPassing := fun o =>
  match o with
  | .lost _ => inferInstanceAs (Decidable True)
  | .answered code _ => inferInstanceAs (Decidable (code = 429 ∨ 500 ≤ code ∧ code < 600))

/-- The attempts of a look-up, the first of which has number zero, end with this one: it is the
first whose outcome is no passing failure, or the last one that is allowed. -/
structure IsLastAttempt (outcomes : Outcomes) (limit last : Nat) : Prop where
  within : last ≤ limit
  passing : ∀ n < last, (outcomes n).IsPassing
  settled : last < limit → ¬ (outcomes last).IsPassing

/-- What the outcome of the last attempt to look up the rows of `path` comes to. -/
def rowsFrom (path : String) : Outcome → Except LookupError (List TradeRow)
  | .lost error => .error (.lost error)
  | .answered code body =>
    if 200 ≤ code ∧ code < 300 then
      match Value.ofText? body with
      | some v => .ok (tradeRows v)
      | none => .error (.malformed path)
    else if code = 429 then .error .rateLimited
    else if 500 ≤ code ∧ code < 600 then .error (.serverError code)
    else .error (.refused code path body)

/-- The rows of the items of an array: one for each record, in order. What is no record is passed
over. -/
inductive RecordRows : List Value → List TradeRow → Prop
  | nil : RecordRows [] []
  | record {items : List Value} {rows : List TradeRow} (fields : List (String × Value)) :
      RecordRows items rows → RecordRows (.object fields :: items) (tradeRow fields :: rows)
  | other {v : Value} {items : List Value} {rows : List TradeRow} :
      (∀ fields, v ≠ .object fields) → RecordRows items rows → RecordRows (v :: items) rows

/-- The rows of a document: those of the records of an array, and none of anything else. -/
inductive DocumentRows : Value → List TradeRow → Prop
  | array {items : List Value} {rows : List TradeRow} :
      RecordRows items rows → DocumentRows (.array items) rows
  | other {v : Value} : (∀ items, v ≠ .array items) → DocumentRows v []

/-- The contract in the body of an answer. -/
def contractIn (body : String) : Except LookupError (Option Contract) :=
  match Value.ofText? body with
  | some v => .ok (contract? v)
  | none => .error .contractsMalformed

/-! ## Outcomes and what they mean -/

/-- The result of a look-up that ends with a verdict. -/
def Verdict.result : Verdict → Except LookupError String
  | .found body => .ok body
  | .passing e | .final e => .error e

theorem isSuccess_iff {code : Nat} : isSuccess code = true ↔ 200 ≤ code ∧ code < 300 := by
  simp [isSuccess]

theorem isServerError_iff {code : Nat} : isServerError code = true ↔ 500 ≤ code ∧ code < 600 := by
  simp [isServerError]

/-- A success is no passing failure. -/
theorem not_isPassing_of_success {code : Nat} {body : String} (h : 200 ≤ code ∧ code < 300) :
    ¬ (Outcome.answered code body).IsPassing := by
  rw [Outcome.IsPassing]
  omega

/-- Judged as passing are the failures that may pass. -/
theorem isPassing_iff (path : String) (o : Outcome) :
    o.IsPassing ↔ ∃ e, judge path o = .passing e := by
  cases o with
  | lost error => exact iff_of_true trivial ⟨_, rfl⟩
  | answered code body =>
      simp only [Outcome.IsPassing, judge, isSuccess_iff, isServerError_iff, tooManyRequests]
      split_ifs with hsuccess hbusy hfailed
      · exact iff_of_false (by omega) (by simp)
      · exact iff_of_true (Or.inl hbusy) ⟨_, rfl⟩
      · exact iff_of_true (Or.inr hfailed) ⟨_, rfl⟩
      · exact iff_of_false (by omega) (by simp)

/-- What a look-up of rows makes of the verdict on its last attempt. -/
theorem rowsFrom_eq (path : String) (o : Outcome) :
    rowsFrom path o =
      (judge path o).result.bind fun body => (decoded (.malformed path) body).map tradeRows := by
  cases o with
  | lost error => rfl
  | answered code body =>
      simp only [rowsFrom, judge, isSuccess_iff, isServerError_iff, tooManyRequests]
      split_ifs with hsuccess
      · cases hbody : Value.ofText? body <;>
          simp [Verdict.result, Except.bind, Except.map, decoded, hbody]
      all_goals rfl

theorem recordRows_tradeRows (items : List Value) :
    RecordRows items (tradeRows (.array items)) := by
  induction items with
  | nil => exact .nil
  | cons v rest ih =>
      cases v with
      | object fields => exact .record fields ih
      | null | boolean | number | text | array => exact .other nofun ih

/-- The items of an array have no other rows. -/
theorem RecordRows.eq_tradeRows {items : List Value} {rows : List TradeRow}
    (h : RecordRows items rows) : rows = tradeRows (.array items) := by
  induction h with
  | nil => rfl
  | record fields _ ih => exact congrArg (tradeRow fields :: ·) ih
  | @other v rest rows hv _ ih =>
      cases v with
      | object fields => exact absurd rfl (hv fields)
      | null | boolean | number | text | array => exact ih

theorem documentRows_iff {v : Value} {rows : List TradeRow} :
    DocumentRows v rows ↔ rows = tradeRows v := by
  constructor
  · rintro (hrecords | hother)
    · exact hrecords.eq_tradeRows
    · cases v with
      | array items => exact absurd rfl (hother items)
      | null | boolean | number | text | object => rfl
  · rintro rfl
    cases v with
    | array items => exact .array (recordRows_tradeRows items)
    | null | boolean | number | text | object => exact .other nofun

/-- **Which rows an attempt brings.** They are the rows of the document that an answer of success
has in its body, and no other outcome brings any. -/
theorem rowsFrom_eq_ok_iff {path : String} {o : Outcome} {rows : List TradeRow} :
    rowsFrom path o = .ok rows ↔ ∃ code body v, o = .answered code body ∧
      (200 ≤ code ∧ code < 300) ∧ Value.ofText? body = some v ∧ DocumentRows v rows := by
  simp only [documentRows_iff]
  constructor
  · intro h
    cases o with
    | lost error => cases h
    | answered code body =>
        simp only [rowsFrom] at h
        split_ifs at h with hsuccess
        cases hbody : Value.ofText? body with
        | none =>
            rw [hbody] at h
            cases h
        | some v =>
            rw [hbody] at h
            exact ⟨code, body, v, rfl, hsuccess, hbody, (Except.ok.inj h).symm⟩
  · rintro ⟨code, body, v, rfl, hsuccess, hbody, rfl⟩
    simp only [rowsFrom, if_pos hsuccess, hbody]

theorem decoded_contracts (body : String) :
    (decoded .contractsMalformed body).map contract? = contractIn body := by
  rw [decoded, contractIn]
  cases Value.ofText? body <;> rfl

/-! ## Attempts -/

section Attempts

variable (base : Nat) (path : String) (outcomes : Outcomes)

/-- A passing failure is made up for by a further attempt, if one is left. -/
theorem attemptsFrom_of_passing {attempt : Nat} (left : Nat)
    (h : (outcomes attempt).IsPassing) :
    attemptsFrom base path outcomes attempt (left + 1) =
      ⟨(attemptsFrom base path outcomes (attempt + 1) left).result,
        delayMs base (attempt + 1) ::
          (attemptsFrom base path outcomes (attempt + 1) left).waits⟩ := by
  obtain ⟨e, he⟩ := (isPassing_iff path _).mp h
  rw [attemptsFrom, he]

/-- Any other outcome is the last one, and so is that of the last attempt. -/
theorem attemptsFrom_of_last (attempt left : Nat)
    (h : 0 < left → ¬ (outcomes attempt).IsPassing) :
    attemptsFrom base path outcomes attempt left =
      ⟨(judge path (outcomes attempt)).result, []⟩ := by
  rw [attemptsFrom]
  cases hjudge : judge path (outcomes attempt) with
  | found body => rfl
  | final e => rfl
  | passing e =>
      cases left with
      | zero => rfl
      | succ left =>
          exact absurd ((isPassing_iff path _).mpr ⟨e, hjudge⟩) (h (Nat.succ_pos left))

/-- From any attempt on, a look-up goes on to its last attempt and comes to its result. -/
theorem attemptsFrom_eq (attempt left : Nat) :
    ∃ more ≤ left, (∀ n < more, (outcomes (attempt + n)).IsPassing) ∧
      (more < left → ¬ (outcomes (attempt + more)).IsPassing) ∧
      (attemptsFrom base path outcomes attempt left).result =
        (judge path (outcomes (attempt + more))).result ∧
      (attemptsFrom base path outcomes attempt left).count = more + 1 := by
  induction left generalizing attempt with
  | zero =>
      have hlast := attemptsFrom_of_last base path outcomes attempt 0 nofun
      refine ⟨0, Nat.le_refl 0, nofun, nofun, ?_, ?_⟩
      · rw [hlast, Nat.add_zero]
      · rw [hlast, Sent.count, List.length_nil]
  | succ left ih =>
      by_cases hpassing : (outcomes attempt).IsPassing
      · obtain ⟨more, hmore, hbefore, hsettled, hresult, hcount⟩ := ih (attempt + 1)
        have hshift (n : Nat) : attempt + 1 + n = attempt + (n + 1) := by omega
        simp only [hshift] at hbefore hsettled hresult
        refine ⟨more + 1, Nat.succ_le_succ hmore, ?_, ?_, ?_, ?_⟩
        · intro n hn
          cases n with
          | zero => exact hpassing
          | succ n => exact hbefore n (Nat.lt_of_succ_lt_succ hn)
        · exact fun hleft => hsettled (Nat.lt_of_succ_lt_succ hleft)
        · rw [attemptsFrom_of_passing base path outcomes left hpassing]
          exact hresult
        · rw [attemptsFrom_of_passing base path outcomes left hpassing, Sent.count,
            List.length_cons]
          exact congrArg (· + 1) hcount
      · have hlast := attemptsFrom_of_last base path outcomes attempt (left + 1)
          fun _ => hpassing
        refine ⟨0, Nat.zero_le _, nofun, fun _ => hpassing, ?_, ?_⟩
        · rw [hlast, Nat.add_zero]
        · rw [hlast, Sent.count, List.length_nil]

end Attempts

section Calls

variable (c : Client) (outcomes : Outcomes)

/-- A look-up of rows goes on to its last attempt. -/
theorem lookUpRows_eq (table : Table) :
    ∃ last, IsLastAttempt outcomes c.maxRetries last ∧
      (lookUpRows c table outcomes).result = rowsFrom (Request.rowsPath table) (outcomes last) ∧
      (lookUpRows c table outcomes).count = last + 1 := by
  obtain ⟨last, hwithin, hpassing, hsettled, hresult, hcount⟩ :=
    attemptsFrom_eq c.retryBaseDelayMs (Request.rowsPath table) outcomes 0 c.maxRetries
  simp only [Nat.zero_add] at hpassing hsettled hresult
  refine ⟨last, ⟨hwithin, hpassing, hsettled⟩, ?_, hcount⟩
  rw [rowsFrom_eq, ← hresult]
  rfl

/-- **Look-ups of rows are sent again exactly as far as needed.** If the client has an address for
the table, a look-up of its rows is sent until an outcome is no passing failure, once more at most
than the client retries, and comes to what the last outcome says: rows, an answer that is no
document, a refusal, or the failure that has not passed. Without an address nothing is sent. A
batch of prices is sent once, whatever comes of it. -/
theorem rows_retried_as_needed (user : String) (table : Table) (keys : List Key) :
    (if (c.address? (Request.rowsPath table)).isSome then
      ∃ last, IsLastAttempt outcomes c.maxRetries last ∧
        (Call.rows user table).run c outcomes =
          ⟨List.replicate (last + 1) (.rows user table),
            ((rowsFrom (Request.rowsPath table) (outcomes last)).map .rows).mapError .lookup⟩
    else (Call.rows user table).run c outcomes = ⟨[], .error (.lookup .noAddress)⟩) ∧
    (if (c.address? Request.pricesPath).isSome then
      (Call.prices keys).run c outcomes =
        ⟨[.prices keys], ((pricesOf (outcomes 0)).map .prices).mapError .quotes⟩
    else (Call.prices keys).run c outcomes = ⟨[], .error (.quotes .unreachable)⟩) := by
  constructor
  · split_ifs with haddress
    · obtain ⟨last, hlast, hresult, hcount⟩ := lookUpRows_eq c outcomes table
      refine ⟨last, hlast, ?_⟩
      rw [← hresult, ← hcount]
      exact if_pos haddress
    · exact if_neg haddress
  · split_ifs with haddress
    · exact if_pos haddress
    · exact if_neg haddress

/-- A look-up of a contract is sent once. -/
theorem run_contract (identity : Identity)
    (haddress : (c.address? Request.contractPath).isSome = true) :
    (Call.contract identity).run c outcomes =
      ⟨[.contract identity],
        ((contractOf (outcomes 0)).map .contract).mapError .lookup⟩ := if_pos haddress

end Calls

/-- A success that comes at once is read. -/
theorem contractOf_of_success {code : Nat} (body : String) (h : 200 ≤ code ∧ code < 300) :
    contractOf (.answered code body) = contractIn body := by
  rw [← decoded_contracts]
  exact if_pos (isSuccess_iff.mpr h)

/-- A failure of the server is told as an unknown instrument. -/
theorem contractOf_of_isPassing {code : Nat} {body : String}
    (h : (Outcome.answered code body).IsPassing) : contractOf (.answered code body) = .ok none := by
  have hfailed : ¬ isSuccess code = true := by
    rw [isSuccess_iff]
    exact fun hsuccess => not_isPassing_of_success hsuccess h
  exact if_neg hfailed

/-- An answer of success is never told as a lost request. -/
theorem contractIn_ne_lost (body : String) : contractIn body ≠ .error .contractsLost := by
  rw [contractIn]
  cases Value.ofText? body <;> simp

/-- The result of a call for the result of a look-up of a contract. -/
def contractResult (found : Except LookupError (Option Contract)) : Except CallError CallResult :=
  (found.map .contract).mapError .lookup

theorem contractResult_inj {first second : Except LookupError (Option Contract)} :
    contractResult first = contractResult second ↔ first = second := by
  constructor
  · intro h
    cases first <;> cases second <;> cases h <;> rfl
  · exact congrArg contractResult

/-- **Look-ups of contracts do not survive passing failures.** After some passing failures, no more
than the client retries, an answer of success is at hand. The look-up reaches it exactly if there
was no failure: it is sent once, whatever the client allows. A first failure of the server is told
as an unknown instrument, which is right only if the answer names no contract either, and a first
request that is lost is told as lost. -/
theorem contract_reached_iff (c : Client) (outcomes : Outcomes) (identity : Identity)
    {passed code : Nat} {body : String}
    (haddress : (c.address? Request.contractPath).isSome = true)
    (hwithin : passed ≤ c.maxRetries) (hpassing : ∀ n < passed, (outcomes n).IsPassing)
    (hanswer : outcomes passed = .answered code body) (hsuccess : 200 ≤ code ∧ code < 300) :
    let report := (Call.contract identity).run c outcomes
    let wanted := contractResult (contractIn body)
    report.requests = [.contract identity] ∧
    (report = ⟨List.replicate (passed + 1) (.contract identity), wanted⟩ ↔ passed = 0) ∧
    (report.result = wanted ↔
      passed = 0 ∨ contractIn body = .ok none ∧ ∃ code body, outcomes 0 = .answered code body) ∧
    (0 < passed → report.result = match outcomes 0 with
      | .lost _ => .error (.lookup .contractsLost)
      | .answered .. => .ok (.contract none)) := by
  intro report wanted
  have hreport : report = ⟨[.contract identity], contractResult (contractOf (outcomes 0))⟩ :=
    run_contract c outcomes identity haddress
  have hfirst : passed = 0 → contractOf (outcomes 0) = contractIn body := by
    rintro rfl
    rw [hanswer, contractOf_of_success body hsuccess]
  rw [hreport]
  refine ⟨rfl, ?_, ?_, ?_⟩
  · constructor
    · intro h
      have hlength := congrArg (fun r : CallReport => r.requests.length) h
      simp only [List.length_replicate, List.length_singleton] at hlength
      omega
    · intro h
      rw [hfirst h, h]
      rfl
  · refine contractResult_inj.trans ?_
    rcases Nat.eq_zero_or_pos passed with hzero | hpositive
    · exact iff_of_true (hfirst hzero) (Or.inl hzero)
    · have hfailed := hpassing 0 hpositive
      have hnonzero := Nat.ne_of_gt hpositive
      cases houtcome : outcomes 0 with
      | lost error =>
          refine iff_of_false (contractIn_ne_lost body).symm ?_
          rintro (hzero | ⟨-, _, _, hanswered⟩)
          · exact hnonzero hzero
          · cases hanswered
      | answered first text =>
          rw [houtcome] at hfailed
          rw [contractOf_of_isPassing hfailed, eq_comm]
          constructor
          · exact fun hnone => Or.inr ⟨hnone, first, text, rfl⟩
          · rintro (hzero | ⟨hnone, -⟩)
            · exact absurd hzero hnonzero
            · exact hnone
  · intro hpositive
    have hfailed := hpassing 0 hpositive
    cases houtcome : outcomes 0 with
    | lost error => rfl
    | answered first text =>
        rw [houtcome] at hfailed
        rw [contractOf_of_isPassing hfailed]
        rfl

/-- A server that fails for a moment and then lists a contract. -/
def briefFailure : Outcomes
  | 0 => .answered 503 ""
  | _ + 1 => .answered 200 "\x7b\"tradingSymbol\":\"X1\",\"scripCode\":\"77\"\x7d"

theorem contractIn_briefFailure :
    contractIn "\x7b\"tradingSymbol\":\"X1\",\"scripCode\":\"77\"\x7d" =
      .ok (some ⟨"X1", some "77"⟩) := by
  have hread : (Value.ofText? "\x7b\"tradingSymbol\":\"X1\",\"scripCode\":\"77\"\x7d").map
      contract? = some (some ⟨"X1", some "77"⟩) := by decide +kernel
  obtain ⟨v, hv, hcontract⟩ := Option.map_eq_some_iff.mp hread
  simp only [contractIn, hv, hcontract]

/-- The look-up of a contract does not reach the answer that comes after `briefFailure`. -/
theorem contract_reached_iff_brief :
    (briefFailure 0).IsPassing ∧
      ((Call.contract { symbol := "X" }).run {} briefFailure).requests =
        [.contract { symbol := "X" }] ∧
      ((Call.contract { symbol := "X" }).run {} briefFailure).result = .ok (.contract none) := by
  have hpassing : ∀ n < 1, (briefFailure n).IsPassing := by decide
  obtain ⟨hrequests, -, -, hunknown⟩ := contract_reached_iff {} briefFailure { symbol := "X" }
    (by decide +kernel) (by decide) hpassing rfl (by decide)
  exact ⟨hpassing 0 Nat.one_pos, hrequests, hunknown Nat.one_pos⟩

/-- An answer of success within the attempts that a client allows is not always told, and neither
is a failure of the server always told as one. -/
theorem not_forall_contract_reached :
    ¬ ∀ (c : Client) (outcomes : Outcomes) (identity : Identity) (passed code : Nat)
      (body : String), (c.address? Request.contractPath).isSome = true → passed ≤ c.maxRetries →
      (∀ n < passed, (outcomes n).IsPassing) → outcomes passed = .answered code body →
      200 ≤ code ∧ code < 300 →
      ((Call.contract identity).run c outcomes).result = contractResult (contractIn body) := by
  intro h
  have hresult := h {} briefFailure { symbol := "X" } 1 200 _ (by decide +kernel) (by decide)
    (by decide) rfl (by decide)
  have hreport := run_contract {} briefFailure { symbol := "X" } (by decide +kernel)
  rw [hreport, contractIn_briefFailure] at hresult
  cases hresult

end QuoteBoard.Backend
