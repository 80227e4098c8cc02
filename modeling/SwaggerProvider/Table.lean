/-!
Tables from names to values. A table keeps its entries in the order in which their names first
arrived; writing a name again replaces the value and keeps the place. `insertSorted` builds tables
that are ordered by name instead.
-/

set_option autoImplicit false

namespace SwaggerProvider

abbrev Table (α : Type) := List (String × α)

namespace Table

variable {α β : Type}

def get? : Table α → String → Option α
  | [], _ => none
  | (name, value) :: rest, key => if name = key then some value else get? rest key

def contains (t : Table α) (key : String) : Bool := (t.get? key).isSome

def keys (t : Table α) : List String := t.map Prod.fst

def values (t : Table α) : List α := t.map Prod.snd

def insert : Table α → String → α → Table α
  | [], key, new => [(key, new)]
  | (name, value) :: rest, key, new =>
    if name = key then (name, new) :: rest else (name, value) :: insert rest key new

/-- The entries are written one after the other, so the last value of a repeated name stays. -/
def ofEntries (entries : List (String × α)) : Table α :=
  entries.foldl (fun t e => t.insert e.1 e.2) []

/-- Writes an entry into a table whose names ascend by code point. -/
def insertSorted : Table α → String → α → Table α
  | [], key, new => [(key, new)]
  | (name, value) :: rest, key, new =>
    if key < name then (key, new) :: (name, value) :: rest
    else if key = name then (key, new) :: rest
    else (name, value) :: insertSorted rest key new

def sorted (entries : List (String × α)) : Table α :=
  entries.foldl (fun t e => t.insertSorted e.1 e.2) []

@[simp] theorem get?_nil (key : String) : get? ([] : Table α) key = none := rfl

@[simp] theorem get?_insert_self (t : Table α) (key : String) (new : α) :
    (t.insert key new).get? key = some new := by
  induction t with
  | nil => simp [insert, get?]
  | cons e rest ih =>
    obtain ⟨name, value⟩ := e
    by_cases h : name = key <;> simp [insert, get?, h, ih]

@[simp] theorem get?_insert_of_ne (t : Table α) {key other : String} (new : α) (h : other ≠ key) :
    (t.insert key new).get? other = t.get? other := by
  induction t with
  | nil => simp [insert, get?, Ne.symm h]
  | cons e rest ih =>
    obtain ⟨name, value⟩ := e
    by_cases hk : name = key
    · subst hk
      simp [insert, get?, Ne.symm h]
    · simp [insert, get?, hk, ih]

theorem keys_insert (t : Table α) (key : String) (new : α) :
    (t.insert key new).keys = if key ∈ t.keys then t.keys else t.keys ++ [key] := by
  induction t with
  | nil => simp [insert, keys]
  | cons e rest ih =>
    obtain ⟨name, value⟩ := e
    simp only [keys] at ih
    by_cases h : name = key
    · simp [insert, keys, h]
    · have h' : key ≠ name := Ne.symm h
      simp only [insert, h, if_false, keys, List.map_cons, ih, List.mem_cons, h', false_or]
      split <;> simp [*]

theorem mem_of_get? {t : Table α} {key : String} {value : α} (h : t.get? key = some value) :
    (key, value) ∈ t := by
  induction t with
  | nil => simp at h
  | cons e rest ih =>
    obtain ⟨name, first⟩ := e
    by_cases hk : name = key
    · simp only [get?, hk, if_true, Option.some.injEq] at h
      simp [hk, h]
    · simp only [get?, hk, if_false] at h
      exact List.mem_cons_of_mem _ (ih h)

theorem get?_isSome_of_mem_keys {t : Table α} {key : String} (h : key ∈ t.keys) :
    (t.get? key).isSome = true := by
  induction t with
  | nil => simp [keys] at h
  | cons e rest ih =>
    obtain ⟨name, value⟩ := e
    by_cases hk : name = key
    · simp [get?, hk]
    · simp only [keys, List.map_cons, List.mem_cons, Ne.symm hk, false_or] at h
      simpa [get?, hk] using ih h

theorem mem_keys_iff {t : Table α} {key : String} :
    key ∈ t.keys ↔ (t.get? key).isSome = true := by
  constructor
  · exact get?_isSome_of_mem_keys
  · intro h
    obtain ⟨value, hvalue⟩ := Option.isSome_iff_exists.1 h
    exact List.mem_map_of_mem (f := Prod.fst) (mem_of_get? hvalue)

theorem get?_eq_none_iff {t : Table α} {key : String} : t.get? key = none ↔ key ∉ t.keys := by
  rw [mem_keys_iff, Option.not_isSome_iff_eq_none]

@[simp] theorem get?_append (t u : Table α) (key : String) :
    get? (t ++ u) key = (get? t key).or (get? u key) := by
  induction t with
  | nil => simp
  | cons e rest ih =>
    obtain ⟨name, value⟩ := e
    by_cases h : name = key <;> simp [get?, h, ih]

theorem get?_map {ι : Type} (name : ι → String) (value : ι → α) (items : List ι) (key : String) :
    get? (items.map fun i => (name i, value i)) key =
      (items.find? fun i => name i == key).map value := by
  induction items with
  | nil => rfl
  | cons i rest ih => by_cases h : name i = key <;> simp [get?, h, ih]

@[simp] theorem get?_map_values (f : α → β) (t : Table α) (key : String) :
    get? (t.map fun e => (e.1, f e.2)) key = (get? t key).map f := by
  induction t with
  | nil => rfl
  | cons e rest ih =>
    obtain ⟨name, value⟩ := e
    by_cases h : name = key <;> simp [get?, h, ih]

@[simp] theorem get?_filter (p : String → Bool) (t : Table α) (key : String) :
    get? (t.filter fun e => p e.1) key = if p key then t.get? key else none := by
  induction t with
  | nil => simp
  | cons e rest ih =>
    obtain ⟨name, value⟩ := e
    by_cases hname : name = key
    · subst hname
      cases hp : p name <;> simp [hp, get?, ih]
    · cases hp : p name <;> simp [hp, get?, hname, ih]

theorem get?_insert (t : Table α) (name : String) (new : α) (key : String) :
    (t.insert name new).get? key = if name = key then some new else t.get? key := by
  by_cases h : name = key
  · rw [h, get?_insert_self, if_pos rfl]
  · rw [get?_insert_of_ne t new (Ne.symm h), if_neg h]

theorem insert_of_get? {t : Table α} {key : String} {value : α}
    (h : t.get? key = some value) : t.insert key value = t := by
  induction t with
  | nil => cases h
  | cons e rest ih =>
    obtain ⟨name, first⟩ := e
    by_cases hk : name = key
    · simp only [get?, hk, if_true, Option.some.injEq] at h
      simp [insert, hk, h]
    · simp only [get?, hk, if_false] at h
      simp [insert, hk, ih h]

theorem get?_insertSorted (t : Table α) (name : String) (new : α) (key : String) :
    (t.insertSorted name new).get? key = if name = key then some new else t.get? key := by
  induction t with
  | nil => simp [insertSorted, get?]
  | cons e rest ih =>
    obtain ⟨first, value⟩ := e
    by_cases hlt : name < first
    · simp [insertSorted, hlt, get?]
    · by_cases heq : name = first
      · subst heq
        by_cases hk : name = key <;> simp [insertSorted, get?, hk]
      · by_cases hk : first = key
        · subst hk
          simp [insertSorted, hlt, heq, get?]
        · simp [insertSorted, hlt, heq, get?, hk, ih]

theorem mem_insertSorted {t : Table α} {name : String} {new : α} {e : String × α}
    (h : e ∈ t.insertSorted name new) : e = (name, new) ∨ e ∈ t := by
  induction t with
  | nil => simpa [insertSorted] using h
  | cons first rest ih =>
    obtain ⟨other, value⟩ := first
    by_cases hlt : name < other
    · simpa [insertSorted, hlt] using h
    · by_cases heq : name = other
      · subst heq
        simp only [insertSorted, hlt, if_false, if_true, List.mem_cons] at h
        exact h.imp_right (List.mem_cons_of_mem _)
      · simp only [insertSorted, hlt, heq, if_false, List.mem_cons] at h
        rcases h with rfl | h
        · exact .inr List.mem_cons_self
        · exact (ih h).imp_right (List.mem_cons_of_mem _)

/-- Of entries that are written one after the other the last one of a name counts. -/
theorem get?_foldl {put : Table α → String × α → Table α}
    (hput : ∀ t e key, (put t e).get? key = if e.1 = key then some e.2 else t.get? key)
    (entries : List (String × α)) (t : Table α) (key : String) :
    get? (entries.foldl put t) key = (get? entries.reverse key).or (t.get? key) := by
  induction entries generalizing t with
  | nil => simp
  | cons e rest ih =>
    obtain ⟨name, value⟩ := e
    rw [List.foldl_cons, ih, hput, List.reverse_cons, get?_append, Option.or_assoc]
    by_cases h : name = key <;> simp [get?, h]

@[simp] theorem get?_foldl_insert (entries : List (String × α)) (t : Table α) (key : String) :
    get? (entries.foldl (fun t e => t.insert e.1 e.2) t) key =
      (get? entries.reverse key).or (t.get? key) :=
  get?_foldl (fun t e key => get?_insert t e.1 e.2 key) entries t key

@[simp] theorem get?_sorted (entries : List (String × α)) (key : String) :
    (sorted entries).get? key = get? entries.reverse key := by
  simp [sorted, get?_foldl (fun t e key => get?_insertSorted t e.1 e.2 key)]

theorem mem_keys_of_mem {t : Table α} {e : String × α} (h : e ∈ t) : e.1 ∈ t.keys :=
  List.mem_map_of_mem (f := Prod.fst) h

theorem get?_eq_some_iff {t : Table α} (h : t.keys.Nodup) {key : String} {value : α} :
    t.get? key = some value ↔ (key, value) ∈ t := by
  refine ⟨mem_of_get?, fun hmem => ?_⟩
  induction t with
  | nil => cases hmem
  | cons e rest ih =>
    obtain ⟨hnew, hrest⟩ := List.nodup_cons.1 h
    rcases List.mem_cons.1 hmem with rfl | hmem
    · exact if_pos rfl
    · have hne : e.1 ≠ key := fun heq => hnew (heq ▸ mem_keys_of_mem hmem)
      exact (if_neg hne).trans (ih hrest hmem)

theorem get?_perm {t u : Table α} (h : t.Perm u) (ht : t.keys.Nodup) (key : String) :
    t.get? key = u.get? key := by
  have hu : u.keys.Nodup := (h.map Prod.fst).nodup_iff.1 ht
  ext value
  rw [get?_eq_some_iff ht, get?_eq_some_iff hu, h.mem_iff]

theorem get?_reverse {t : Table α} (h : t.keys.Nodup) (key : String) :
    get? t.reverse key = t.get? key :=
  (get?_perm t.reverse_perm.symm h key).symm

theorem get?_sorted_eq {entries : List (String × α)} {key : String} {value : Option α}
    (h : ∀ found, (key, found) ∈ entries ↔ value = some found) :
    (sorted entries).get? key = value := by
  rw [get?_sorted]
  cases hlookup : get? entries.reverse key with
  | some found =>
    exact ((h found).1 (List.mem_reverse.1 (mem_of_get? hlookup))).symm
  | none =>
    refine (Option.eq_none_iff_forall_ne_some.2 fun found hvalue => ?_).symm
    have hkey : key ∈ keys entries.reverse :=
      mem_keys_of_mem (List.mem_reverse.2 ((h found).2 hvalue))
    rw [mem_keys_iff, hlookup] at hkey
    cases hkey

theorem mem_of_mem_foldl_insertSorted {entries : List (String × α)} {t : Table α} {e : String × α}
    (h : e ∈ entries.foldl (fun t e => t.insertSorted e.1 e.2) t) : e ∈ entries ∨ e ∈ t := by
  induction entries generalizing t with
  | nil => exact .inr h
  | cons first rest ih =>
    rcases ih h with h | h
    · exact .inl (List.mem_cons_of_mem _ h)
    · rcases mem_insertSorted h with rfl | h
      · exact .inl List.mem_cons_self
      · exact .inr h

theorem mem_of_mem_sorted {entries : List (String × α)} {e : String × α}
    (h : e ∈ sorted entries) : e ∈ entries := by
  rcases mem_of_mem_foldl_insertSorted h with h | h
  · exact h
  · cases h

@[simp] theorem get?_ofEntries (entries : List (String × α)) (key : String) :
    (ofEntries entries).get? key = get? entries.reverse key := by
  simp [ofEntries]

theorem get?_ofEntries_cons (name : String) (value : α) (rest : List (String × α))
    (key : String) :
    (ofEntries ((name, value) :: rest)).get? key =
      ((ofEntries rest).get? key).or (if name = key then some value else none) := by
  simp only [get?_ofEntries, List.reverse_cons, get?_append, get?]

end Table

end SwaggerProvider
