/-
# The pauses of a look-up

Before a look-up of rows is sent again some time goes by: the base delay, and twice as much each
further time. How many times as much is told in thirty-two bits, which is enough for thirty-two
retries (`delayFactor_exact_iff`). No rule for settings bounds the number of retries. Where more of
them are allowed, a look-up that goes on failing comes to a thirty-third, and from there on no time
goes by at all. A pause itself is told in whole seconds of sixty-four bits. A long base delay
exceeds them after fewer retries (`pausesFit_iff`), where a service that keeps time in this way
breaks off; `lookUpRows` tells such a pause like any other.
-/

import QuoteBoard.Proofs.Backend.Lookup
import QuoteBoard.Proofs.Settings.Accepted
import Mathlib.Algebra.Order.Ring.Nat

namespace QuoteBoard.Backend

open QuoteBoard.Dashboard (Table)

/-- A look-up comes to this attempt, the first of which has number zero: the client allows it, and
every outcome before it is a passing failure. -/
structure Reaches (outcomes : Outcomes) (limit attempt : Nat) : Prop where
  within : attempt ≤ limit
  passing : ∀ n < attempt, (outcomes n).IsPassing

namespace Reaches

variable {outcomes : Outcomes} {limit attempt earlier : Nat}

/-- A look-up comes to the attempts before one that it comes to. -/
theorem mono (h : Reaches outcomes limit attempt) (hle : earlier ≤ attempt) :
    Reaches outcomes limit earlier :=
  ⟨hle.trans h.within, fun n hn => h.passing n (hn.trans_le hle)⟩

end Reaches

/-- A look-up comes to the attempts up to its last one. -/
theorem IsLastAttempt.reaches_iff {outcomes : Outcomes} {limit last attempt : Nat}
    (h : IsLastAttempt outcomes limit last) : Reaches outcomes limit attempt ↔ attempt ≤ last := by
  constructor
  · intro hreaches
    by_contra hmore
    have hlt := Nat.not_le.mp hmore
    exact h.settled (hlt.trans_le hreaches.within) (hreaches.passing last hlt)
  · exact Reaches.mono ⟨h.within, h.passing⟩

/-- The factor of every retry that a look-up comes to fits in thirty-two bits, and so it is what
it is meant to be. -/
def FactorsFit (c : Client) (table : Table) (outcomes : Outcomes) : Prop :=
  ∀ attempt, 0 < attempt → attempt < (lookUpRows c table outcomes).count →
    2 ^ (attempt - 1) < UInt32.size ∧ delayFactor attempt = 2 ^ (attempt - 1)

/-- The whole seconds of a pause fit in sixty-four bits. -/
def PauseFits (ms : Nat) : Prop := ms / 1000 < UInt64.size

instance : DecidablePred PauseFits := fun ms =>
  inferInstanceAs (Decidable (ms / 1000 < UInt64.size))

/-- The milliseconds of the pauses of a look-up that is sent `retries` more times: doubled each
time up to the thirty-second, and none from then on. -/
def pauses (base retries : Nat) : List Nat :=
  (List.range' 1 retries).map fun attempt =>
    base * if attempt ≤ 32 then 2 ^ (attempt - 1) else 0

/-! ## Factors -/

theorem delayFactor_of_le {attempt : Nat} (h : attempt ≤ 32) :
    delayFactor attempt = 2 ^ (attempt - 1) := by
  apply Nat.mod_eq_of_lt
  calc 2 ^ (attempt - 1)
    _ ≤ 2 ^ 31 := Nat.pow_le_pow_right Nat.two_pos (by omega)
    _ < UInt32.size := by decide

/-- From retry number 33 on all bits of the factor are lost. -/
theorem delayFactor_of_lt {attempt : Nat} (h : 32 < attempt) : delayFactor attempt = 0 := by
  apply Nat.mod_eq_zero_of_dvd
  exact Nat.pow_dvd_pow 2 (show 32 ≤ attempt - 1 by omega)

/-- **Thirty-two bits are enough for thirty-two retries.** -/
theorem delayFactor_exact_iff {attempt : Nat} :
    2 ^ (attempt - 1) < UInt32.size ∧ delayFactor attempt = 2 ^ (attempt - 1) ↔ attempt ≤ 32 := by
  constructor
  · rintro ⟨-, hexact⟩
    by_contra h
    rw [delayFactor_of_lt (Nat.not_le.mp h)] at hexact
    exact (Nat.two_pow_pos _).ne hexact
  · intro h
    have hexact := delayFactor_of_le h
    exact ⟨hexact ▸ Nat.mod_lt _ (by decide), hexact⟩

/-- The last factor that can be told, and the one after it. -/
example : delayFactor 32 = 2147483648 ∧ delayFactor 33 = 0 := by decide

/-! ## Pauses -/

section Attempts

variable (base : Nat) (path : String) (outcomes : Outcomes)

theorem delayMs_eq (attempt : Nat) :
    delayMs base attempt = base * if attempt ≤ 32 then 2 ^ (attempt - 1) else 0 := by
  rw [delayMs]
  split
  · next h => rw [delayFactor_of_le h]
  · next h => rw [delayFactor_of_lt (Nat.not_le.mp h)]

/-- The pauses of a look-up are those of its attempts, one after the other. -/
theorem waits_attemptsFrom (attempt left : Nat) :
    let sent := attemptsFrom base path outcomes attempt left
    sent.waits = (List.range' (attempt + 1) sent.waits.length).map (delayMs base) := by
  induction left generalizing attempt with
  | zero =>
      rw [attemptsFrom_of_last base path outcomes attempt 0 nofun]
      rfl
  | succ left ih =>
      by_cases hpassing : (outcomes attempt).IsPassing
      · rw [attemptsFrom_of_passing base path outcomes left hpassing]
        simp only [List.length_cons, List.range'_succ, List.map_cons]
        exact congrArg _ (ih (attempt + 1))
      · rw [attemptsFrom_of_last base path outcomes attempt (left + 1) fun _ => hpassing]
        rfl

end Attempts

section LookUps

variable (c : Client) (table : Table) (outcomes : Outcomes)

/-- The pauses of a look-up double up to its last attempt, as far as the factor can be told. -/
theorem waits_lookUpRows :
    ∃ last, IsLastAttempt outcomes c.maxRetries last ∧
      (lookUpRows c table outcomes).count = last + 1 ∧
      (lookUpRows c table outcomes).waits = pauses c.retryBaseDelayMs last := by
  obtain ⟨last, hlast, -, hcount⟩ := lookUpRows_eq c outcomes table
  have hlength : (lookUpRows c table outcomes).waits.length = last := Nat.succ.inj hcount
  refine ⟨last, hlast, hcount, ?_⟩
  calc (lookUpRows c table outcomes).waits
    _ = (List.range' 1 (lookUpRows c table outcomes).waits.length).map
          (delayMs c.retryBaseDelayMs) :=
        waits_attemptsFrom c.retryBaseDelayMs (Request.rowsPath table) outcomes 0 c.maxRetries
    _ = pauses c.retryBaseDelayMs last := by
        rw [hlength, pauses]
        exact List.map_congr_left fun attempt _ => delayMs_eq c.retryBaseDelayMs attempt

/-- The attempts that a look-up makes are those that it comes to. -/
theorem lt_count_iff {attempt : Nat} :
    attempt < (lookUpRows c table outcomes).count ↔ Reaches outcomes c.maxRetries attempt := by
  obtain ⟨last, hlast, -, hcount⟩ := lookUpRows_eq c outcomes table
  rw [hcount, Nat.lt_succ_iff, hlast.reaches_iff]

/-- The factors fit unless a look-up comes to its thirty-third retry. -/
theorem factorsFit_iff : FactorsFit c table outcomes ↔ ¬ Reaches outcomes c.maxRetries 33 := by
  simp only [FactorsFit, lt_count_iff, delayFactor_exact_iff]
  constructor
  · intro h hreaches
    exact absurd (h 33 (by decide) hreaches) (by decide)
  · intro h attempt _ hreaches
    by_contra hmore
    exact h (hreaches.mono (Nat.not_le.mp hmore))

end LookUps

/-! ## Fitting in every look-up -/

theorem mem_pauses_iff {base retries ms : Nat} :
    ms ∈ pauses base retries ↔ ∃ attempt, (0 < attempt ∧ attempt ≤ retries) ∧
      base * (if attempt ≤ 32 then 2 ^ (attempt - 1) else 0) = ms := by
  have hretry (attempt : Nat) :
      attempt ∈ List.range' 1 retries ↔ 0 < attempt ∧ attempt ≤ retries := by
    rw [List.mem_range'_1]
    omega
  simp only [pauses, List.mem_map, hretry]

theorem pauses_subset {base retries more : Nat} (h : retries ≤ more) :
    pauses base retries ⊆ pauses base more := by
  intro ms hms
  obtain ⟨attempt, ⟨hpos, hle⟩, hattempt⟩ := mem_pauses_iff.mp hms
  exact mem_pauses_iff.mpr ⟨attempt, ⟨hpos, hle.trans h⟩, hattempt⟩

/-- All pauses fit if the longest of them fits, which is the last one that is doubled. -/
theorem pausesFit_iff {base : Nat} (retries : Nat) (hbase : base < UInt64.size) :
    (∀ ms ∈ pauses base retries, PauseFits ms) ↔
      PauseFits (base * 2 ^ (min retries 32 - 1)) := by
  constructor
  · intro h
    rcases Nat.eq_zero_or_pos retries with rfl | hretries
    · -- there is no pause, and the base delay fits without being doubled
      have hms : base * 2 ^ (min 0 32 - 1) = base := Nat.mul_one base
      rw [hms]
      exact (Nat.div_le_self base 1000).trans_lt hbase
    · refine h _ (mem_pauses_iff.mpr ⟨min retries 32, by omega, ?_⟩)
      rw [if_pos (Nat.min_le_right ..)]
  · intro h ms hms
    obtain ⟨attempt, ⟨hpos, hle⟩, rfl⟩ := mem_pauses_iff.mp hms
    split
    · have hdoubled : 2 ^ (attempt - 1) ≤ 2 ^ (min retries 32 - 1) :=
        Nat.pow_le_pow_right Nat.two_pos (by omega)
      exact (Nat.div_le_div_right (Nat.mul_le_mul_left base hdoubled)).trans_lt h
    · rw [Nat.mul_zero]
      decide

/-- No request is ever answered. -/
def neverAnswered : Outcomes := fun _ => .lost

theorem reaches_neverAnswered {limit attempt : Nat} (h : attempt ≤ limit) :
    Reaches neverAnswered limit attempt := ⟨h, fun _ _ => trivial⟩

/-- A look-up that is never answered is sent as often as it may be. -/
theorem last_of_neverAnswered {limit last : Nat} (h : IsLastAttempt neverAnswered limit last) :
    last = limit :=
  h.within.antisymm (h.reaches_iff.mp (reaches_neverAnswered (Nat.le_refl limit)))

/-- **The factors fit in every look-up exactly if there are at most thirty-two retries.** Settings
that are accepted hold a number of retries of thirty-two bits, and any number may take its place.
The pauses of a look-up double up to its last attempt, or up to its thirty-second retry if that
comes first, and no time goes by before the later ones. So the factors of a look-up fit unless it
comes to its thirty-third retry. The pauses fit in every look-up exactly if the longest does. -/
theorem factorsFit_iff_retries_le {text : String} {s : Settings}
    (h : Settings.ofText text = .ok s) (table : Table) :
    let c := Client.ofSettings s.backend
    (c.maxRetries < UInt32.size ∧ ∀ n, (s.withRetries n).validate = .ok (s.withRetries n)) ∧
    (∀ outcomes, ∃ last, IsLastAttempt outcomes c.maxRetries last ∧
      (lookUpRows c table outcomes).waits = pauses c.retryBaseDelayMs last) ∧
    (∀ outcomes, FactorsFit c table outcomes ↔ ¬ Reaches outcomes c.maxRetries 33) ∧
    ((∀ outcomes, FactorsFit c table outcomes) ↔ c.maxRetries ≤ 32) ∧
    ((∀ outcomes, ∀ ms ∈ (lookUpRows c table outcomes).waits, PauseFits ms) ↔
      PauseFits (c.retryBaseDelayMs * 2 ^ (min c.maxRetries 32 - 1))) := by
  intro c
  have hfits := Settings.fits_of_ofText h
  have hvalid := (Settings.ofText_eq_ok h).2
  have hbase : c.retryBaseDelayMs < UInt64.size := hfits.retryBaseDelayMs
  have hwaits (outcomes : Outcomes) := waits_lookUpRows c table outcomes
  refine ⟨⟨hfits.maxRetries, Settings.validate_withRetries hvalid⟩, ?_,
    factorsFit_iff c table, ?_, ?_⟩
  · intro outcomes
    obtain ⟨last, hlast, -, heq⟩ := hwaits outcomes
    exact ⟨last, hlast, heq⟩
  · constructor
    · intro hall
      by_contra hmany
      exact (factorsFit_iff c table neverAnswered).mp (hall neverAnswered)
        (reaches_neverAnswered (Nat.not_le.mp hmany))
    · intro hfew outcomes
      rw [factorsFit_iff]
      intro hreaches
      exact absurd (hreaches.within.trans hfew) (by decide)
  · rw [← pausesFit_iff c.maxRetries hbase]
    constructor
    · intro hall
      obtain ⟨last, hlast, -, heq⟩ := hwaits neverAnswered
      rw [← last_of_neverAnswered hlast, ← heq]
      exact hall neverAnswered
    · intro hall outcomes ms hms
      obtain ⟨last, hlast, -, heq⟩ := hwaits outcomes
      exact hall ms (pauses_subset hlast.within (heq ▸ hms))

/-- A settings file that allows one retry too many. -/
def manyRetriesFile : String :=
  "[service]\nname = \"board\"\n[backend]\nbase_url = \"http://localhost:8080\"\nmax_retries = 33\n"

/-- What `manyRetriesFile` says. -/
def manyRetries : Settings :=
  { service := { name := "board" }
    backend := { baseUrl := "http://localhost:8080", maxRetries := 33 } }

theorem ofText_manyRetriesFile : Settings.ofText manyRetriesFile = .ok manyRetries := by
  have hread : (Settings.ofText manyRetriesFile).toOption = some manyRetries := by decide +kernel
  cases h : Settings.ofText manyRetriesFile with
  | error e => simp [h, Except.toOption] at hread
  | ok s => simpa [h, Except.toOption] using hread

/-- Under `manyRetriesFile` the factors of a look-up that is never answered do not fit. -/
theorem factorsFit_iff_retries_le_many :
    Settings.ofText manyRetriesFile = .ok manyRetries ∧ Reaches neverAnswered 33 33 ∧
      ¬ FactorsFit (Client.ofSettings manyRetries.backend) .requests neverAnswered ∧
      ∀ ms ∈ (lookUpRows (Client.ofSettings manyRetries.backend) .requests neverAnswered).waits,
        PauseFits ms := by
  obtain ⟨-, -, hrun, -, hpauses⟩ := factorsFit_iff_retries_le ofText_manyRetriesFile .requests
  have hreaches : Reaches neverAnswered 33 33 := reaches_neverAnswered (Nat.le_refl 33)
  exact ⟨ofText_manyRetriesFile, hreaches, fun hfit => (hrun neverAnswered).mp hfit hreaches,
    hpauses.mpr (by decide) neverAnswered⟩

/-- Not all factors fit: retry number 33 of `manyRetriesFile` has the factor zero. -/
theorem not_forall_factorsFit :
    ¬ ∀ (text : String) (s : Settings), Settings.ofText text = .ok s →
      ∀ (table : Table) (outcomes : Outcomes),
        ((Client.ofSettings s.backend).address? (Request.rowsPath table)).isSome = true →
        FactorsFit (Client.ofSettings s.backend) table outcomes := by
  intro h
  have hfit := h manyRetriesFile manyRetries ofText_manyRetriesFile .requests neverAnswered
    (by decide +kernel)
  exact (factorsFit_iff _ _ _).mp hfit (reaches_neverAnswered (Nat.le_refl 33))

end QuoteBoard.Backend
