/-!
Finite maps as lists of entries, one entry to a key. A new key goes to the end, and a key that is
written again keeps its place. Reading after writing: `get?_insert`, `get?_erase`.
-/

namespace MarketFeed

structure Table (κ α : Type) where
  entries : List (κ × α)

namespace Table

variable {κ α : Type} [DecidableEq κ]

def empty : Table κ α := ⟨[]⟩

instance : Inhabited (Table κ α) := ⟨empty⟩

def find? (key : κ) : List (κ × α) → Option α
  | [] => none
  | (k, a) :: rest => if k = key then some a else find? key rest

def get? (table : Table κ α) (key : κ) : Option α := find? key table.entries

def contains (table : Table κ α) (key : κ) : Bool := (table.get? key).isSome

def put (key : κ) (a : α) : List (κ × α) → List (κ × α)
  | [] => [(key, a)]
  | (k, b) :: rest => if k = key then (key, a) :: rest else (k, b) :: put key a rest

def insert (table : Table κ α) (key : κ) (a : α) : Table κ α := ⟨put key a table.entries⟩

def erase (table : Table κ α) (key : κ) : Table κ α := ⟨table.entries.filter (·.1 ≠ key)⟩

def size (table : Table κ α) : Nat := table.entries.length

def isEmpty (table : Table κ α) : Bool := table.entries.isEmpty

def keys (table : Table κ α) : List κ := table.entries.map (·.1)

def values (table : Table κ α) : List α := table.entries.map (·.2)

/-- The keys in ascending order. -/
def sortedKeys (table : Table String α) : List String :=
  table.keys.mergeSort fun a b => a ≤ b

@[simp] theorem get?_empty (key : κ) : (empty : Table κ α).get? key = none := rfl

theorem size_eq_zero {table : Table κ α} (h : ∀ key, table.get? key = none) : table.size = 0 := by
  obtain ⟨entries⟩ := table
  cases entries with
  | nil => rfl
  | cons entry rest => exact absurd (h entry.1) (by simp [get?, find?])

theorem mem_keys_of_find? {key : κ} {a : α} {entries : List (κ × α)}
    (h : find? key entries = some a) : key ∈ entries.map (·.1) := by
  induction entries with
  | nil => exact absurd h (by simp [find?])
  | cons entry rest ih =>
    by_cases hk : entry.1 = key
    · exact hk ▸ List.mem_cons_self ..
    · rw [find?, if_neg hk] at h
      exact List.mem_cons_of_mem _ (ih h)

theorem find?_eq_none_iff {key : κ} {entries : List (κ × α)} :
    find? key entries = none ↔ key ∉ entries.map (·.1) := by
  induction entries with
  | nil => simp [find?]
  | cons entry rest ih => by_cases h : entry.1 = key <;> simp_all [find?, eq_comm]

theorem put_of_find?_eq_none {key : κ} {entries : List (κ × α)} (h : find? key entries = none)
    (a : α) : put key a entries = entries ++ [(key, a)] := by
  induction entries with
  | nil => rfl
  | cons entry rest ih =>
    by_cases hk : entry.1 = key
    · rw [find?, if_pos hk] at h
      exact absurd h (by simp)
    · rw [find?, if_neg hk] at h
      rw [put, if_neg hk, ih h, List.cons_append]

/-- The entry that is found is the one that is written. -/
theorem exists_of_find?_eq_some {key : κ} {a : α} {entries : List (κ × α)}
    (h : find? key entries = some a) : ∃ front back, entries = front ++ (key, a) :: back ∧
      ∀ b, put key b entries = front ++ (key, b) :: back := by
  induction entries with
  | nil => exact absurd h (by simp [find?])
  | cons entry rest ih =>
    obtain ⟨k, b⟩ := entry
    by_cases hk : k = key
    · rw [find?, if_pos hk, Option.some.injEq] at h
      refine ⟨[], rest, by rw [hk, h, List.nil_append], fun b => ?_⟩
      rw [put, if_pos hk, List.nil_append]
    · rw [find?, if_neg hk] at h
      obtain ⟨front, back, hsplit, hput⟩ := ih h
      refine ⟨(k, b) :: front, back, by rw [hsplit, List.cons_append], fun c => ?_⟩
      rw [put, if_neg hk, hput, List.cons_append]

/-- Up to the order of the entries, a written entry takes the place of one with its key, if there is
one. -/
theorem exists_put_perm (key : κ) (a : α) (entries : List (κ × α)) : ∃ others,
    (put key a entries).Perm ((key, a) :: others) ∧ others.Sublist entries ∧
      (∀ entry ∈ entries, entry.1 ≠ key → entry ∈ others) ∧
      ((entries.map (·.1)).Nodup → key ∉ others.map (·.1)) := by
  cases hfind : find? key entries with
  | none =>
    refine ⟨entries, ?_, List.Sublist.refl _, fun _ hm _ => hm, fun _ =>
      find?_eq_none_iff.mp hfind⟩
    rw [put_of_find?_eq_none hfind]
    exact List.perm_append_comm
  | some b =>
    obtain ⟨front, back, rfl, hput⟩ := exists_of_find?_eq_some hfind
    refine ⟨front ++ back, ?_, ?_, fun entry hm hne => ?_, fun hnodup => ?_⟩
    · rw [hput]
      exact List.perm_middle
    · exact (List.sublist_cons_self ..).append_left front
    · rcases List.mem_append.mp hm with hm | hm
      · exact List.mem_append_left _ hm
      · rcases List.mem_cons.mp hm with rfl | hm
        · exact absurd rfl hne
        · exact List.mem_append_right _ hm
    · rw [(List.perm_middle.map _).nodup_iff, List.map_cons, List.nodup_cons] at hnodup
      exact hnodup.1

theorem find?_put (key l : κ) (a : α) (entries : List (κ × α)) :
    find? l (put key a entries) = if key = l then some a else find? l entries := by
  induction entries with
  | nil => simp [put, find?]
  | cons entry rest ih =>
    by_cases h : entry.1 = key <;> by_cases hl : key = l <;> simp_all [put, find?]

theorem get?_insert (table : Table κ α) (key l : κ) (a : α) :
    (table.insert key a).get? l = if key = l then some a else table.get? l :=
  find?_put key l a table.entries

theorem find?_filter_ne (key l : κ) (entries : List (κ × α)) :
    find? l (entries.filter (·.1 ≠ key)) = if key = l then none else find? l entries := by
  induction entries with
  | nil => simp [find?]
  | cons entry rest ih =>
    by_cases h : entry.1 = key <;> by_cases hl : key = l <;> by_cases he : entry.1 = l <;>
      simp_all [find?, List.filter]

theorem get?_erase (table : Table κ α) (key l : κ) :
    (table.erase key).get? l = if key = l then none else table.get? l :=
  find?_filter_ne key l table.entries

end Table

end MarketFeed
