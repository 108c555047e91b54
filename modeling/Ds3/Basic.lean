import Mathlib.Data.List.Nodup

/-! # Outcomes of the C code and the GLib hash table

`Outcome` is what one piece of `ds3.c` does when it runs: it returns, or it
hands a null pointer to a function that reads through it (`strlen`,
`strtoul`, `g_ascii_strtoll`), which the C standard leaves undefined.  The
client's decoders and its header callback have such paths; the model keeps
them as `Outcome.nullDeref` instead of guessing what the crash looks like.

`HashTable` is the `GHashTable` keyed by C strings (`g_str_hash`,
`g_str_equal`) that the client uses for query parameters and response
headers.  Its list of bindings is also the order in which
`g_hash_table_foreach` visits them, which GLib leaves unspecified, so a result
proved for every table holds for every visiting order. -/

set_option autoImplicit false

namespace Ds3

/-- The result of running a piece of the C code. -/
inductive Outcome (α : Type) where
  | returns (value : α)
  | nullDeref
deriving DecidableEq, Repr

instance : Monad Outcome where
  pure := .returns
  bind x f := match x with
    | .returns a => f a
    | .nullDeref => .nullDeref

section OutcomeLemmas
variable {α β : Type}

@[simp] theorem Outcome.pure_eq (a : α) : (pure a : Outcome α) = .returns a := rfl

@[simp] theorem Outcome.returns_bind (a : α) (f : α → Outcome β) :
    (Outcome.returns a >>= f) = f a := rfl

@[simp] theorem Outcome.nullDeref_bind (f : α → Outcome β) :
    (Outcome.nullDeref >>= f) = .nullDeref := rfl

@[simp] theorem Outcome.map_returns (a : α) (f : α → β) :
    (f <$> Outcome.returns a) = .returns (f a) := rfl

@[simp] theorem Outcome.map_nullDeref (f : α → β) :
    (f <$> (Outcome.nullDeref : Outcome α)) = .nullDeref := rfl

theorem Outcome.bind_eq_returns {x : Outcome α} {f : α → Outcome β} {b : β}
    (run : (x >>= f) = .returns b) : ∃ a, x = .returns a ∧ f a = .returns b := by
  cases x with
  | returns a => exact ⟨a, rfl, run⟩
  | nullDeref => cases run

theorem Outcome.map_eq_returns {f : α → β} {x : Outcome α} {b : β} (run : f <$> x = .returns b) :
    ∃ a, x = .returns a ∧ f a = b := by
  cases x with
  | returns a => exact ⟨a, rfl, Outcome.returns.inj run⟩
  | nullDeref => cases run

@[simp] theorem Outcome.map_eq_nullDeref_iff (f : α → β) (x : Outcome α) :
    f <$> x = .nullDeref ↔ x = .nullDeref := by
  cases x <;> simp

theorem Outcome.foldlM_eq_nullDeref_iff {γ : Type} (f : β → γ → Outcome β) (crashes : γ → Prop)
    (crash : ∀ b x, f b x = .nullDeref ↔ crashes x) :
    ∀ (xs : List γ) (init : β), xs.foldlM f init = .nullDeref ↔ ∃ x ∈ xs, crashes x := by
  intro xs
  induction xs with
  | nil => intro init; simp
  | cons y rest ih =>
      intro init
      rw [List.foldlM_cons]
      cases step : f init y with
      | returns b =>
          have safe : ¬ crashes y := fun picked => by rw [(crash init y).mpr picked] at step; cases step
          simp only [Outcome.returns_bind, ih, List.mem_cons, exists_eq_or_imp, safe, false_or]
      | nullDeref =>
          simp only [Outcome.nullDeref_bind, true_iff]
          exact ⟨y, List.mem_cons_self y rest, (crash init y).mp step⟩

theorem Outcome.foldlM_append_map {γ : Type} (f : γ → Outcome β) (g : γ → β)
    (described : ∀ x y, f x = .returns y → y = g x) :
    ∀ (xs : List γ) (init out : List β),
      xs.foldlM (fun array x => (fun y => array ++ [y]) <$> f x) init = .returns out →
        out = init ++ xs.map g := by
  intro xs
  induction xs with
  | nil => intro init out run; cases run; simp
  | cons x rest ih =>
      intro init out run
      rw [List.foldlM_cons] at run
      cases produced : f x with
      | returns y =>
          rw [produced] at run
          rw [ih _ _ run, described x y produced, List.map_cons, List.append_assoc, List.singleton_append]
      | nullDeref => rw [produced] at run; cases run

theorem Outcome.foldlM_field {γ τ : Type} (f : β → γ → Outcome β) (field : β → τ) (update : τ → γ → τ)
    (stepField : ∀ b x b', f b x = .returns b' → field b' = update (field b) x) :
    ∀ (xs : List γ) (init final : β), xs.foldlM f init = .returns final →
      field final = xs.foldl update (field init) := by
  intro xs
  induction xs with
  | nil => intro init final run; cases run; rfl
  | cons x rest ih =>
      intro init final run
      rw [List.foldlM_cons] at run
      obtain ⟨next, step, rest⟩ := Outcome.bind_eq_returns run
      rw [ih next final rest, stepField init x next step, List.foldl_cons]

end OutcomeLemmas

/-- A `GHashTable` keyed by C strings: each key is bound once. -/
structure HashTable (β : Type) where
  entries : List (List Char × β)
  keys_nodup : (entries.map Prod.fst).Nodup
deriving DecidableEq

namespace HashTable
variable {β : Type}

/-- Models `g_hash_table_new`: no bindings. -/
def empty : HashTable β := ⟨[], List.nodup_nil⟩

theorem keys_nodup_insert (entries : List (List Char × β)) (keysNodup : (entries.map Prod.fst).Nodup)
    (key : List Char) (value : β) :
    (((key, value) :: entries.filter (fun entry => entry.1 ≠ key)).map Prod.fst).Nodup := by
  refine List.nodup_cons.mpr ⟨?_, keysNodup.sublist ((List.filter_sublist _).map _)⟩
  simp only [List.mem_map, List.mem_filter, not_exists, not_and]
  intro entry ⟨_, differs⟩ same
  exact absurd same (by simpa using differs)

/-- Models `g_hash_table_insert` on the texts of the keys: the new value replaces
any value bound to the key.  GLib keeps the old key's pointer and destroys the old
value, and `_ds3_free_response_header` frees that key with it; a table of texts
cannot see this, so results about a whole run over the texts are stated for distinct names,
and `Ds3.HeaderMemory` follows the pointers. -/
def insert (table : HashTable β) (key : List Char) (value : β) : HashTable β :=
  ⟨(key, value) :: table.entries.filter (fun entry => entry.1 ≠ key),
    keys_nodup_insert table.entries table.keys_nodup key value⟩

/-- Models `g_hash_table_lookup`. -/
def lookup (table : HashTable β) (key : List Char) : Option β := table.entries.lookup key

/-- Models `g_hash_table_size`. -/
def size (table : HashTable β) : Nat := table.entries.length

@[simp] theorem size_empty : (empty : HashTable β).size = 0 := rfl

@[simp] theorem lookup_empty (key : List Char) : (empty : HashTable β).lookup key = none := rfl

theorem lookup_filter_ne (entries : List (List Char × β)) (key other : List Char)
    (differ : other ≠ key) :
    (entries.filter (fun entry => entry.1 ≠ key)).lookup other = entries.lookup other := by
  induction entries with
  | nil => rfl
  | cons entry rest ih =>
      obtain ⟨k, v⟩ := entry
      by_cases same : k = key
      · subst same
        have miss : (other == k) = false := beq_false_of_ne differ
        simpa [List.filter_cons, List.lookup_cons, miss] using ih
      · by_cases hit : other = k
        · subst hit; simp [same, List.lookup_cons]
        · have miss : (other == k) = false := beq_false_of_ne hit
          simpa [List.filter_cons, List.lookup_cons, same, miss] using ih

@[simp] theorem lookup_insert (table : HashTable β) (key other : List Char) (value : β) :
    (table.insert key value).lookup other =
      if other = key then some value else table.lookup other := by
  by_cases same : other = key
  · subst same; simp [insert, lookup, List.lookup_cons]
  · have miss : (other == key) = false := beq_false_of_ne same
    simp only [insert, lookup, List.lookup_cons, miss, same, if_false]
    exact lookup_filter_ne table.entries key other same

theorem lookup_foldl_insert (key : List Char) :
    ∀ (bindings : List (List Char × β)) (table : HashTable β),
      (bindings.foldl (fun table binding => table.insert binding.1 binding.2) table).lookup key =
        (bindings.reverse.lookup key).or (table.lookup key)
  | [], table => rfl
  | (bound, value) :: rest, table => by
      rw [List.foldl_cons, lookup_foldl_insert key rest, lookup_insert, List.reverse_cons, List.lookup_append,
        Option.or_assoc]
      by_cases same : key = bound
      · subst same; simp
      · simp [List.lookup_cons, same, beq_false_of_ne same]

end HashTable

end Ds3
