/-
# From documents to values

A value keeps of a document what look-up can tell: under each name the value of the last
member of that name. What is read from a document member by member can therefore be
compared with its value name by name.
-/

import QuoteBoard.Json.Document
import QuoteBoard.Proofs.Text.Map
import Mathlib.Data.List.Forall2

namespace QuoteBoard.Json

universe u v

/-- The fields of an object are the table of its members. -/
theorem ofMembers_eq (members : List (String × Value)) :
    Value.ofMembers members = .object (TextMap.ofList members).entries := by
  have hfold : ∀ m : TextMap Value,
      members.foldl (fun fields p => TextMap.insertEntry p.1 p.2 fields) m.entries =
        (m.insertAll members).entries := by
    induction members with
    | nil => exact fun m => rfl
    | cons p rest ih => exact fun m => ih (m.insert p.1 p.2)
  exact congrArg Value.object (hfold TextMap.empty)

/-- A field holds the value of the last member of its name. -/
theorem field?_ofList (members : List (String × Value)) (name : String) :
    field? (TextMap.ofList members).entries name = members.reverse.lookup name :=
  TextMap.get?_ofList members name

/-! ## Lists read side by side -/

/-- Two lists that agree on their keys, and in each place on what stands under the key. -/
def Alongside {α : Type u} {β : Type v} (R : α → β → Prop) (xs : List (String × α))
    (ys : List (String × β)) : Prop :=
  List.Forall₂ (fun x y => x.1 = y.1 ∧ R x.2 y.2) xs ys

/-- What is looked up in two lists that are read side by side is related. -/
theorem Alongside.lookup {α : Type u} {β : Type v} {R : α → β → Prop} {xs : List (String × α)}
    {ys : List (String × β)} (h : Alongside R xs ys) (k : String) :
    Option.Rel R (xs.lookup k) (ys.lookup k) := by
  induction h with
  | nil => exact .none
  | @cons x y xs ys hhead _ ih =>
      obtain ⟨key, a⟩ := x
      obtain ⟨_, b⟩ := y
      obtain ⟨rfl, hrel⟩ := hhead
      rw [TextMap.lookup_cons_ite, TextMap.lookup_cons_ite]
      split
      · exact .some hrel
      · exact ih

theorem Alongside.reverse {α : Type u} {β : Type v} {R : α → β → Prop} {xs : List (String × α)}
    {ys : List (String × β)} (h : Alongside R xs ys) : Alongside R xs.reverse ys.reverse :=
  List.rel_reverse h

/-! ## Members and their values -/

/-- A member has this name and this value. -/
def Reads (room : Nat) (m : Spelled × Document) (p : String × Value) : Prop :=
  m.1 = some p.1 ∧ m.2.value? room = some p.2

theorem reads_of_memberValues? {room : Nat} {ms : List (Spelled × Document)}
    {vs : List (String × Value)} (h : memberValues? room ms = some vs) :
    List.Forall₂ (Reads room) ms vs := by
  induction ms generalizing vs with
  | nil =>
      cases h
      exact .nil
  | cons m rest ih =>
      obtain ⟨name, d⟩ := m
      rw [memberValues?] at h
      simp only [Option.bind_eq_bind, Option.bind_eq_some_iff, Option.pure_def,
        Option.some.injEq] at h
      obtain ⟨name, rfl, v, hv, vs, hvs, rfl⟩ := h
      exact .cons ⟨rfl, hv⟩ (ih hvs)

/-- A document whose value is an object lists members with these values. -/
theorem object_of_value? {room : Nat} {d : Document} {fields : List (String × Value)}
    (h : d.value? room = some (.object fields)) :
    ∃ less ms vs, d = .object ms ∧ List.Forall₂ (Reads less) ms vs ∧
      fields = (TextMap.ofList vs).entries := by
  cases d with
  | object ms =>
      cases room with
      | zero => simp [Document.value?] at h
      | succ less =>
          rw [Document.value?] at h
          obtain ⟨vs, hvs, hobject⟩ := Option.map_eq_some_iff.mp h
          rw [ofMembers_eq] at hobject
          cases hobject
          exact ⟨less, ms, vs, rfl, reads_of_memberValues? hvs, rfl⟩
  | null | boolean => simp [Document.value?] at h
  | number n => simp [Document.value?] at h
  | text s => simp [Document.value?] at h
  | array items => cases room <;> simp [Document.value?] at h

end QuoteBoard.Json
