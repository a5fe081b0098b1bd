import Overworld.Json.Reading

/-!
Reading back what was written.

A form reads back if a reader makes of it what it was made of, wherever enough containers may still
nest (`Json.ReadsBack`). Lists read back item by item. A record is written with its fields in the
order in which the reader knows them, so that it reads back one known field after the other
(`Json.Written`). An object that names its kind is read through as a whole first, which forms
without faults survive (`Json.Faultless`).
-/

namespace Overworld.Json

variable {α β ρ : Type}

/-- A form that a reader reads as a value, where a number of containers may still nest. -/
def ReadsBack (depth : Nat) (reader : Reader α) (form : Json) (x : α) : Prop :=
  ∀ place : Place, depth ≤ place.room → reader place form = .ok x

/-! ### Forms without faults -/

/-- A form that can be read through, whatever it is meant to be, where a number of containers may
still nest. -/
def Faultless (depth : Nat) (form : Json) : Prop := ∀ room, depth ≤ room → check room form = .ok ()

namespace Faultless

variable {depth : Nat}

theorem string (s : String) : Faultless depth (.string s) := by
  intro room _
  cases room <;> rfl

theorem bool (b : Bool) : Faultless depth (.bool b) := by
  intro room _
  cases room <;> rfl

theorem number (n : Number) : Faultless depth (.number n) := by
  intro room _
  cases room <;> rfl

theorem list {items : List Json} (h : ∀ item ∈ items, Faultless depth item) :
    Faultless (depth + 1) (.list items) := by
  intro room le
  obtain ⟨room, rfl⟩ : ∃ n, room = n + 1 := ⟨room - 1, by omega⟩
  have all : checkItems room items = .ok () := by
    induction items with
    | nil => rfl
    | cons item items ih =>
      rw [checkItems, h item List.mem_cons_self room (Nat.le_of_succ_le_succ le)]
      exact ih fun other mem => h other (List.mem_cons_of_mem _ mem)
  rw [Json.list, check, all]
  rfl

theorem record {fields : List (String × Json)} (h : ∀ field ∈ fields, Faultless depth field.2) :
    Faultless (depth + 1) (.record fields) := by
  intro room le
  obtain ⟨room, rfl⟩ : ∃ n, room = n + 1 := ⟨room - 1, by omega⟩
  have all : checkFields room (fields.map fun field => (some field.1, field.2)) = .ok () := by
    induction fields with
    | nil => rfl
    | cons field fields ih =>
      rw [List.map_cons, checkFields, h field List.mem_cons_self room (Nat.le_of_succ_le_succ le)]
      exact ih fun other mem => h other (List.mem_cons_of_mem _ mem)
  rw [Json.record, check, all]
  rfl

end Faultless

namespace ReadsBack

variable {depth : Nat}

/-! ### Single values -/

theorem plainText (s : String) : ReadsBack depth plainText (.string s) s := fun _ _ => rfl

theorem boolean (b : Bool) : ReadsBack depth boolean (.bool b) b := fun _ _ => rfl

theorem single (x : Float32) : ReadsBack depth single (.number (.single x)) x := fun _ _ => rfl

theorem int {low high n : Int} (inside : low ≤ n ∧ n ≤ high) :
    ReadsBack depth (int low high) (.ofInt n) n := fun _ _ => if_pos inside

theorem natBelow {bound n : Nat} (inside : n < bound) :
    ReadsBack depth (natBelow bound) (.ofNat n) n := by
  intro place le
  have read : Json.int 0 (bound - 1) place (.ofInt n) = .ok (n : Int) :=
    int ⟨by omega, by omega⟩ place le
  rw [Json.natBelow, Json.ofNat]
  change (Json.int 0 (bound - 1) place (.ofInt n)).map _ = _
  rw [read]
  rfl

/-- A name out of a table. -/
theorem nameIn {table : List (String × α)} {name : String} {x : α}
    (found : table.lookup name = some x) : ReadsBack depth (nameIn table) (.string name) x := by
  intro place _
  rw [Json.nameIn, lookUp, found]

/-- A form that is not null reads back where null may stand as well. -/
theorem nullable {reader : Reader α} {form : Json} {x : α} (there : form ≠ .null)
    (h : ReadsBack depth reader form x) : ReadsBack depth (nullable reader) form (some x) := by
  intro place le
  have read : Json.nullable reader place form = (reader place form).map some := by
    cases form with
    | null => exact absurd rfl there
    | _ => rfl
  rw [read, h place le]
  rfl

theorem null (reader : Reader α) : ReadsBack depth (Json.nullable reader) .null none :=
  fun _ _ => rfl

/-! ### Lists -/

/-- The items of a list read back one by one. -/
theorem list {reader : Reader α} {form : α → Json} {xs : List α}
    (h : ∀ x ∈ xs, ReadsBack depth reader (form x) x) :
    ReadsBack (depth + 1) (listOf reader) (.list (xs.map form)) xs := by
  intro place le
  have some : place.room ≠ 0 := by omega
  have inner : depth ≤ place.inner.room := Nat.le_sub_of_add_le le
  have items (index : Nat) : itemsFrom reader place.inner index (xs.map form) = .ok xs := by
    induction xs generalizing index with
    | nil => rfl
    | cons x xs ih =>
      rw [List.map_cons, itemsFrom, h x List.mem_cons_self place.inner inner]
      change (itemsFrom reader place.inner (index + 1) (xs.map form) >>= _) = _
      rw [ih (fun y mem => h y (List.mem_cons_of_mem _ mem)) (index + 1)]
      rfl
  rw [Json.list, listOf, if_neg some]
  change (itemsFrom reader place.inner 0 (xs.map form) >>= _) = _
  rw [items]
  rfl

end ReadsBack

/-! ### Records -/

/-- Fields that were written in the order in which a reader knows them, and what it makes of one
record after reading them. -/
inductive Written (depth : Nat) : List (KnownField ρ) → List (String × Json) → ρ → ρ → Prop
  | nil (p : ρ) : Written depth [] [] p p
  | cons {σ : Type} {name : String} {names : List String} {reader : Reader σ} {get : ρ → Option σ}
    {set : ρ → σ → ρ} {known : List (KnownField ρ)} {form : Json} {x : σ}
    {fields : List (String × Json)} {p q : ρ} (reads : ReadsBack depth reader form x)
    (unset : (get p).isSome = false) (rest : Written depth known fields (set p x) q) :
    Written depth (fieldCalled (name :: names) reader get set :: known) ((name, form) :: fields) p q

/-- No name stands for two fields. -/
def Distinct (known : List (KnownField ρ)) : Prop := (known.flatMap (·.names)).Nodup

instance (known : List (KnownField ρ)) : Decidable (Distinct known) :=
  inferInstanceAs (Decidable (List.Nodup _))

/-- A field is found by its first name, if no other goes by it. -/
theorem Distinct.find? {before after : List (KnownField ρ)} {f : KnownField ρ} {name : String}
    {names : List String} (distinct : Distinct (before ++ f :: after))
    (is : f.names = name :: names) :
    (before ++ f :: after).find? (fun g => g.names.contains name) = some f := by
  have here : f.names.contains name = true := by
    rw [is]
    exact List.contains_iff_mem.mpr List.mem_cons_self
  have others : before.find? (fun g => g.names.contains name) = none := by
    rw [List.find?_eq_none]
    intro g mem goes
    have first : name ∈ before.flatMap (·.names) :=
      List.mem_flatMap.mpr ⟨g, mem, List.contains_iff_mem.mp goes⟩
    have second : name ∈ (f :: after).flatMap (·.names) :=
      List.mem_flatMap.mpr ⟨f, List.mem_cons_self, List.contains_iff_mem.mp here⟩
    rw [Distinct, List.flatMap_append] at distinct
    exact (List.nodup_append.mp distinct).2.2 name first name second rfl
  rw [List.find?_append, others, Option.none_or]
  exact List.find?_cons_of_pos here

/-- Fields that were written read back one by one, whatever known fields stand before them. -/
theorem Written.readFields_eq {depth : Nat} {known : List (KnownField ρ)}
    {fields : List (String × Json)} {p q : ρ} (written : Written depth known fields p q)
    {place : Place} (le : depth ≤ place.room) (before : List (KnownField ρ))
    (distinct : Distinct (before ++ known)) :
    readFields (before ++ known) place (fields.map fun field => (some field.1, field.2)) none p =
      .ok q := by
  -- The fields that are known already do not go by the names of those that follow, so each field is
  -- found where the reader knows it.
  induction written generalizing before with
  | nil p => rfl
  | @cons σ name names reader get set known form x fields p q reads unset rest ih =>
    have found := distinct.find? (f := fieldCalled (name :: names) reader get set) rfl
    have read : (fieldCalled (name :: names) reader get set).read place form p = .ok (set p x) := by
      change (reader place form).map (set p) = _
      rw [reads place le]
      rfl
    have assoc : before ++ fieldCalled (name :: names) reader get set :: known =
        (before ++ [fieldCalled (name :: names) reader get set]) ++ known := by simp
    have next := ih (before ++ [fieldCalled (name :: names) reader get set]) (assoc ▸ distinct)
    rw [List.map_cons, readFields, found]
    simp only [show (fieldCalled (name :: names) reader get set).isSet p = false from unset,
      Bool.false_eq_true, if_false, read]
    rw [assoc]
    exact next

/-- A record reads back if its fields do and make it complete. -/
theorem ReadsBack.record {depth : Nat} {known : List (KnownField ρ)} {blank q : ρ}
    {complete : ρ → Option α} {fields : List (String × Json)} {x : α} (distinct : Distinct known)
    (written : Written depth known fields blank q) (done : complete q = some x) :
    ReadsBack (depth + 1) (recordOf known blank complete) (.record fields) x := by
  intro place le
  have some : place.room ≠ 0 := by omega
  have inner : depth ≤ place.inner.room := Nat.le_sub_of_add_le le
  have read := written.readFields_eq inner [] distinct
  rw [List.nil_append] at read
  simp only [recordOf, Json.record, if_neg some, read]
  change Except.bind (.ok q) _ = _
  simp only [Except.bind, done]

/-! ### Objects that name their kind -/

/-- The fields of an object stay as they are when it is read through. -/
theorem takeKind_eq {κ : Type} (kindOf : Json → Except Misread κ) {room : Nat}
    {fields : List (String × Json)} (others : ∀ field ∈ fields, field.1 ≠ "type")
    (faultless : ∀ field ∈ fields, Faultless room field.2) (kind : κ)
    (before : List (Option String × Json)) :
    takeKind kindOf room (fields.map fun field => (some field.1, field.2)) none (some kind) before =
      .ok (kind, before.reverse ++ fields.map fun field => (some field.1, field.2)) := by
  induction fields generalizing before with
  | nil =>
    rw [List.map_nil, List.append_nil]
    rfl
  | cons field fields ih =>
    rw [List.map_cons, takeKind, if_neg (others field List.mem_cons_self),
      faultless field List.mem_cons_self room (Nat.le_refl room)]
    refine (ih (fun other mem => others other (List.mem_cons_of_mem _ mem))
      (fun other mem => faultless other (List.mem_cons_of_mem _ mem)) _).trans ?_
    rw [List.reverse_cons, List.append_assoc, List.singleton_append]

/-- An object that names its kind reads back if the rest of it does as one of that kind. -/
theorem ReadsBack.kinded {depth : Nat} {kinds : List (String × Reader α)}
    {other : Option (Reader α)} {kind : String} {reader : Reader α} {fields : List (String × Json)}
    {x : α} (found : (kinds.lookup kind <|> other) = some reader)
    (others : ∀ field ∈ fields, field.1 ≠ "type")
    (faultless : ∀ field ∈ fields, Faultless depth field.2)
    (h : ReadsBack (depth + 1) reader (.record fields) x) :
    ReadsBack (depth + 1) (kinded kinds other) (.record (("type", .string kind) :: fields)) x := by
  intro place le
  have some : place.room ≠ 0 := by omega
  have within : ∀ field ∈ fields, Faultless (place.room - 1) field.2 := fun field mem room more =>
    faultless field mem room (by omega)
  simp only [Json.kinded, Json.record, List.map_cons, if_neg some, takeKind, if_true, found]
  change (takeKind _ (place.room - 1) _ none (Option.some reader) [] >>= _) = _
  rw [takeKind_eq _ others within]
  change atWhole (reader { place with buffered := true } (.record fields)) = _
  rw [h { place with buffered := true } le]
  rfl

end Overworld.Json
