import Tabular.Config.Encoding
import Mathlib.Data.List.Basic

/-! # Leaving members out

A document without some of its members is what is left when each member of a given address is taken
out with all that is in it. A structure read from what is left finds the fields whose members have
stayed, and these without the members taken out further inside.
-/
namespace Tabular

namespace Json

inductive Step where
  | member (name : String)
  | item (i : Nat)
  deriving DecidableEq, Repr

/-- Where a part of a document is: the steps that lead to it, from the outside. -/
abbrev Address := List Step

abbrev Addresses := Address → Bool

def Addresses.under (gone : Addresses) (s : Step) : Addresses := fun a => gone (s :: a)

mutual

/-- A document without the members of some addresses. Items of lists stay, and nothing else can be
taken out. -/
def without (gone : Addresses) : Json → Json
  | .null => .null
  | .bool b => .bool b
  | .number text => .number text
  | .string s => .string s
  | .array items => .array (withoutItems gone 0 items)
  | .object members => .object (withoutMembers gone members)

def withoutItems (gone : Addresses) (i : Nat) : List Json → List Json
  | [] => []
  | x :: xs => x.without (gone.under (.item i)) :: withoutItems gone (i + 1) xs

def withoutMembers (gone : Addresses) : List (String × Json) → List (String × Json)
  | [] => []
  | (k, v) :: ms =>
    if gone [.member k] then withoutMembers gone ms
    else (k, v.without (gone.under (.member k))) :: withoutMembers gone ms

end

def noAddress : Addresses := fun _ => false

variable {gone : Addresses} {name : String} {ms : List (String × Json)}

@[simp] theorem under_noAddress (s : Step) : noAddress.under s = noAddress := rfl

mutual

@[simp] theorem without_noAddress : ∀ j : Json, j.without noAddress = j
  | .null | .bool _ | .number _ | .string _ => rfl
  | .array items => by rw [without, withoutItems_noAddress 0 items]
  | .object members => by rw [without, withoutMembers_noAddress members]

theorem withoutItems_noAddress : ∀ (i : Nat) (xs : List Json), withoutItems noAddress i xs = xs
  | _, [] => rfl
  | i, x :: xs => by
    rw [withoutItems, under_noAddress, without_noAddress x, withoutItems_noAddress (i + 1) xs]

theorem withoutMembers_noAddress : ∀ ms : List (String × Json), withoutMembers noAddress ms = ms
  | [] => rfl
  | (k,v) :: ms => by
    rw [withoutMembers, under_noAddress, without_noAddress v, withoutMembers_noAddress ms]
    rfl

end

@[simp] theorem without_string (s : String) : (string s).without gone = .string s := rfl

theorem withoutItems_string (i : Nat) (xs : List String) :
    withoutItems gone i (xs.map Json.string) = xs.map Json.string := by
  induction xs generalizing i with
  | nil => rfl
  | cons x xs ih => rw [List.map_cons, withoutItems, without_string, ih]

theorem map_fst_withoutMembers (gone : Addresses) (ms : List (String × Json)) :
    (withoutMembers gone ms).map Prod.fst =
      (ms.map Prod.fst).filter fun k => !gone [.member k] := by
  induction ms with
  | nil => rfl
  | cons m ms ih =>
    obtain ⟨k,v⟩ := m
    by_cases h : gone [.member k] = true <;> simp [withoutMembers, h, ih]

theorem lookup_withoutMembers (gone : Addresses) (name : String) (ms : List (String × Json)) :
    (withoutMembers gone ms).lookup name =
      if gone [.member name] then none
      else (ms.lookup name).map (without (gone.under (.member name))) := by
  induction ms with
  | nil => simp [withoutMembers]
  | cons m ms ih =>
    obtain ⟨k,v⟩ := m
    by_cases hk : name = k
    · subst hk
      by_cases h : gone [.member name] = true <;> simp [withoutMembers, h, ih]
    · have hb : (name == k) = false := by simpa using hk
      by_cases h : gone [.member k] = true <;> simp [withoutMembers, h, ih, List.lookup_cons, hb]

theorem withoutMembers_eq_self (h : ∀ k, gone [.member k] = false)
    (hv : ∀ m ∈ ms, m.2.without (gone.under (.member m.1)) = m.2) :
    withoutMembers gone ms = ms := by
  induction ms with
  | nil => rfl
  | cons m ms ih =>
    obtain ⟨k,v⟩ := m
    have hkeep : ¬ gone [.member k] = true := by simp [h k]
    rw [withoutMembers, if_neg hkeep, hv (k,v) List.mem_cons_self,
      ih fun m hm => hv m (List.mem_cons_of_mem _ hm)]

end Json

namespace Document
open Json

variable {gone : Addresses} {names : List String} {ms : List (String × Json)} {f : Fields Json}
variable {α : Type} {read : Json → Option α} {name : String} {j : Json} {a value : α}

/-- Fields that are left of members: under each of the known names there is what is left of its
member, unless that was taken out. -/
def LeftOf (gone : Addresses) (names : List String) (ms : List (String × Json))
    (f : Fields Json) : Prop :=
  ∀ name ∈ names, f.parts.lookup name =
    if gone [.member name] then none
    else (ms.lookup name).map (without (gone.under (.member name)))

theorem lookup_filter {p : String → Bool} (h : p name = true) (ms : List (String × Json)) :
    (ms.filter fun m => p m.1).lookup name = ms.lookup name := by
  induction ms with
  | nil => rfl
  | cons m ms ih =>
    obtain ⟨k,v⟩ := m
    by_cases hk : name = k
    · subst hk
      simp [h]
    · have hb : (name == k) = false := by simpa using hk
      by_cases hp : p k = true <;> simp [hp, List.lookup_cons, hb, ih]

/-- A structure of which members were taken out can still be taken apart into its fields. -/
theorem exists_fields?_without (gone : Addresses) (names : List String)
    (hj : j.members? = some ms) (h : (ms.map Prod.fst).Nodup) :
    ∃ f, fields? names (j.without gone) = some f ∧ LeftOf gone names ms f := by
  obtain rfl : j = .object ms := by
    cases j <;> cases hj
    rfl
  have hnodup : (((withoutMembers gone ms).filter fun m => names.contains m.1).map
      Prod.fst).Nodup := by
    refine List.Nodup.sublist (List.filter_sublist.map Prod.fst) ?_
    rw [map_fst_withoutMembers]
    exact h.filter _
  refine ⟨⟨(withoutMembers gone ms).filter fun m => names.contains m.1⟩,?_,fun name hname => ?_⟩
  · exact if_pos hnodup
  · have hcontains : names.contains name = true := by simpa using hname
    rw [← lookup_withoutMembers]
    exact lookup_filter hcontains _

/-- A field that may be left out has its default exactly if its member was taken out. -/
theorem LeftOf.withDefault (h : LeftOf gone names ms f) (hname : name ∈ names)
    (hmember : ms.lookup name = some j)
    (hread : gone [.member name] = false → read (j.without (gone.under (.member name))) = some a) :
    f.withDefault name value read = some (if gone [.member name] then value else a) := by
  rw [Fields.withDefault, h name hname, hmember]
  cases hgone : gone [.member name] with
  | true => simp
  | false => simpa [hgone] using hread hgone

theorem LeftOf.withDefault_of_absent (h : LeftOf gone names ms f) (hname : name ∈ names)
    (hmember : ms.lookup name = none) : f.withDefault name value read = some value := by
  rw [Fields.withDefault, h name hname, hmember]
  simp

theorem LeftOf.required (h : LeftOf gone names ms f) (hname : name ∈ names)
    (hmember : ms.lookup name = some j) (hkept : gone [.member name] = false)
    (hread : read (j.without (gone.under (.member name))) = some a) :
    f.required name read = some a := by
  rw [Fields.required, h name hname, hmember]
  simpa [hkept] using hread

end Document
end Tabular
