/-! # Mappings

Finite mappings as lists of entries with distinct keys, in the order in which the keys were first
inserted. -/

namespace JobControl

structure Mapping (κ α : Type) where
  entries : List (κ × α)
  distinct : (entries.map Prod.fst).Nodup
deriving Repr

namespace Mapping
variable {κ α β : Type}

theorem ext {m m' : Mapping κ α} (h : m.entries = m'.entries) : m = m' := by
  cases m; cases m'; simp_all

instance [DecidableEq κ] [DecidableEq α] : DecidableEq (Mapping κ α) := fun m m' =>
  if h : m.entries = m'.entries then isTrue (ext h) else isFalse fun e => h (e ▸ rfl)

def empty : Mapping κ α := ⟨[], List.nodup_nil⟩

instance : EmptyCollection (Mapping κ α) := ⟨empty⟩
instance : Inhabited (Mapping κ α) := ⟨empty⟩

def keys (m : Mapping κ α) : List κ := m.entries.map Prod.fst

def mapValues (f : κ → α → β) (m : Mapping κ α) : Mapping κ β where
  entries := m.entries.map fun e => (e.1, f e.1 e.2)
  distinct := by simpa [Function.comp_def] using m.distinct

def filter (p : κ → α → Bool) (m : Mapping κ α) : Mapping κ α where
  entries := m.entries.filter fun e => p e.1 e.2
  distinct := m.distinct.sublist (List.filter_sublist.map _)

variable [DecidableEq κ]

def lookup (k : κ) : List (κ × α) → Option α
  | [] => none
  | (k', a) :: rest => if k' = k then some a else lookup k rest

def get? (m : Mapping κ α) (k : κ) : Option α := lookup k m.entries

def contains (m : Mapping κ α) (k : κ) : Bool := (m.get? k).isSome

def put (k : κ) (a : α) : List (κ × α) → List (κ × α)
  | [] => [(k, a)]
  | (k', a') :: rest => if k' = k then (k, a) :: rest else (k', a') :: put k a rest

theorem mem_keys_put {k x : κ} {a : α} {l : List (κ × α)} :
    x ∈ (put k a l).map Prod.fst ↔ x = k ∨ x ∈ l.map Prod.fst := by
  induction l with
  | nil => simp [put]
  | cons e l ih =>
    unfold put; split
    · rename_i h; simp [← h]
    · simp only [List.map_cons, List.mem_cons, ih]; grind

theorem nodup_put {k : κ} {a : α} {l : List (κ × α)} (h : (l.map Prod.fst).Nodup) :
    ((put k a l).map Prod.fst).Nodup := by
  induction l with
  | nil => simp [put]
  | cons e l ih =>
    have ⟨hne, hl⟩ := List.nodup_cons.1 h
    unfold put; split
    · rename_i he; exact List.nodup_cons.2 ⟨he ▸ hne, hl⟩
    · rename_i he
      refine List.nodup_cons.2 ⟨fun hm => ?_, ih hl⟩
      rcases mem_keys_put.1 hm with hm | hm
      · exact he hm
      · exact hne hm

/-- Set the value of a key; a new key comes last. -/
def insert (m : Mapping κ α) (k : κ) (a : α) : Mapping κ α :=
  ⟨put k a m.entries, nodup_put m.distinct⟩

def erase (m : Mapping κ α) (k : κ) : Mapping κ α := m.filter fun k' _ => k' ≠ k

def modify (m : Mapping κ α) (k : κ) (f : α → α) : Mapping κ α :=
  m.mapValues fun k' a => if k' = k then f a else a

/-! ## Look-up -/

@[simp] theorem get?_empty (k : κ) : (∅ : Mapping κ α).get? k = none := rfl

theorem lookup_put (k k' : κ) (a : α) (l : List (κ × α)) :
    lookup k' (put k a l) = if k' = k then some a else lookup k' l := by
  induction l with
  | nil => simp [put, lookup, eq_comm]
  | cons e l ih => unfold put lookup; grind [lookup]

@[simp] theorem get?_insert (m : Mapping κ α) (k k' : κ) (a : α) :
    (m.insert k a).get? k' = if k' = k then some a else m.get? k' :=
  lookup_put k k' a m.entries

/-- A new key comes last. -/
theorem put_of_lookup {k : κ} {l : List (κ × α)} (h : lookup k l = none) (a : α) :
    put k a l = l ++ [(k, a)] := by
  induction l with
  | nil => rfl
  | cons e l ih =>
    unfold lookup at h
    split at h
    · contradiction
    · rename_i hne
      rw [put, if_neg hne, ih h]
      rfl

theorem entries_insert_of_get? {m : Mapping κ α} {k : κ} (h : m.get? k = none) (a : α) :
    (m.insert k a).entries = m.entries ++ [(k, a)] := put_of_lookup h a

theorem lookup_filter_ne (k k' : κ) (l : List (κ × α)) :
    lookup k' (l.filter fun e => e.1 ≠ k) = if k' = k then none else lookup k' l := by
  induction l with
  | nil => simp [lookup]
  | cons e l ih => grind [lookup]

@[simp] theorem get?_erase (m : Mapping κ α) (k k' : κ) :
    (m.erase k).get? k' = if k' = k then none else m.get? k' :=
  lookup_filter_ne k k' m.entries

theorem lookup_map (f : κ → α → β) (k : κ) (l : List (κ × α)) :
    lookup k (l.map fun e => (e.1, f e.1 e.2)) = (lookup k l).map (f k) := by
  induction l with
  | nil => rfl
  | cons e l ih => grind [lookup]

@[simp] theorem get?_mapValues (m : Mapping κ α) (f : κ → α → β) (k : κ) :
    (m.mapValues f).get? k = (m.get? k).map (f k) :=
  lookup_map f k m.entries

@[simp] theorem get?_modify (m : Mapping κ α) (k k' : κ) (f : α → α) :
    (m.modify k f).get? k' = if k' = k then (m.get? k').map f else m.get? k' := by
  rw [modify, get?_mapValues]; split <;> cases m.get? k' <;> rfl

theorem mem_entries_iff (m : Mapping κ α) {k : κ} {a : α} :
    (k, a) ∈ m.entries ↔ m.get? k = some a := by
  obtain ⟨l, h⟩ := m
  show (k, a) ∈ l ↔ lookup k l = some a
  induction l with
  | nil => simp [lookup]
  | cons e l ih =>
    have ⟨hne, hl⟩ := List.nodup_cons.1 h
    have hmem : ∀ b, (e.1, b) ∈ l → e.1 ∈ l.map Prod.fst := fun b hb =>
      List.mem_map.2 ⟨_, hb, rfl⟩
    grind [lookup]

end Mapping
end JobControl
