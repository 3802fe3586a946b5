import Mathlib.Data.List.Nodup

namespace TmVault.Relational

open List Function

universe u v

section

variable {Row : Type u} {Key : Type v} [DecidableEq Key] {key : Row → Key} {k j : Key}
  {f : Row → Row} {table : List Row} {r : Row}

def updateKey (key : Row → Key) (k : Key) (f : Row → Row) (table : List Row) : List Row :=
  table.map fun r => if key r = k then f r else r

@[simp] theorem mem_updateKey : r ∈ updateKey key k f table ↔
    r ∈ table ∧ key r ≠ k ∨ ∃ old ∈ table, key old = k ∧ f old = r := by
  rw [updateKey, mem_map]
  constructor
  · rintro ⟨old, hold, rfl⟩
    by_cases h : key old = k
    · exact .inr ⟨old, hold, h, (if_pos h).symm⟩
    · rw [if_neg h]
      exact .inl ⟨hold, h⟩
  · rintro (⟨hr, h⟩ | ⟨old, hold, h, rfl⟩)
    · exact ⟨r, hr, if_neg h⟩
    · exact ⟨old, hold, if_pos h⟩

theorem map_updateKey {Column : Type*} {column : Row → Column}
    (keeps : ∀ r, key r = k → column (f r) = column r) :
    (updateKey key k f table).map column = table.map column := by
  rw [updateKey, map_map]
  apply map_congr_left
  intro r _
  by_cases h : key r = k
  · simp only [comp_apply, if_pos h, keeps r h]
  · simp only [comp_apply, if_neg h]

theorem find?_updateKey (keeps : ∀ r, key r = k → key (f r) = key r) :
    (updateKey key k f table).find? (key · = j) =
      (table.find? (key · = j)).map fun r => if key r = k then f r else r := by
  rw [updateKey, find?_map]
  congr 1
  congr 1
  funext r
  by_cases h : key r = k
  · simp only [comp_apply, if_pos h, keeps r h]
  · simp only [comp_apply, if_neg h]

theorem find?_updateKey_self (keeps : ∀ r, key r = k → key (f r) = key r)
    (h : table.find? (key · = k) = some r) : (updateKey key k f table).find? (key · = k) = some (f r) := by
  have hk : key r = k := by simpa using find?_some h
  rw [find?_updateKey keeps, h, Option.map_some, if_pos hk]

section

variable {p : Row → Bool}

theorem filter_updateKey (keeps : ∀ r, p (f r) = p r) :
    (updateKey key k f table).filter p = updateKey key k f (table.filter p) := by
  rw [updateKey, filter_map, updateKey]
  congr 2
  funext r
  rw [comp_apply]
  split
  · exact keeps r
  · rfl

theorem countP_updateKey_le (h : ∀ r ∈ table, key r = k → p (f r) → p r) :
    (updateKey key k f table).countP p ≤ table.countP p := by
  rw [updateKey, countP_map]
  refine countP_mono_left fun r hr counted => ?_
  by_cases hk : key r = k
  · rw [comp_apply, if_pos hk] at counted
    exact h r hr hk counted
  · rwa [comp_apply, if_neg hk] at counted

theorem countP_updateKey_le_succ (nodup : (table.map key).Nodup) :
    (updateKey key k f table).countP p ≤ table.countP p + 1 := by
  induction table with
  | nil => exact Nat.zero_le _
  | cons r table ih =>
    rw [map_cons, nodup_cons] at nodup
    rw [updateKey, map_cons, ← updateKey]
    by_cases hk : key r = k
    · -- the key is not among the rows behind
      have rest : updateKey key k f table = table := by
        refine (map_congr_left fun s hs => if_neg fun same => ?_).trans (map_id table)
        exact nodup.1 (hk ▸ same ▸ mem_map_of_mem hs)
      rw [if_pos hk, rest, countP_cons, countP_cons]
      split <;> split <;> omega
    · rw [if_neg hk, countP_cons, countP_cons]
      have := ih nodup.2
      omega

end

variable {R : Row → Row → Prop} {table' table'' : List Row}

/-- Rows were rewritten where they stand, each to one that `R` relates it to. -/
abbrev InPlace (R : Row → Row → Prop) (table table' : List Row) : Prop := List.Forall₂ R table table'

namespace InPlace

theorem of_eq (refl : ∀ r, R r r) (h : table' = table) : InPlace R table table' :=
  h ▸ forall₂_same.mpr fun r _ => refl r

theorem of_map (h : ∀ r ∈ table, R r (f r)) : InPlace R table (table.map f) :=
  forall₂_map_right_iff.mpr (forall₂_same.mpr h)

theorem updateKey (refl : ∀ r, R r r) (h : ∀ r ∈ table, key r = k → R r (f r)) :
    InPlace R table (Relational.updateKey key k f table) := by
  refine of_map fun r hr => ?_
  by_cases hk : key r = k
  · rw [if_pos hk]
    exact h r hr hk
  · rw [if_neg hk]
    exact refl r

theorem trans (step : ∀ {a b c}, R a b → R b c → R a c) (h : InPlace R table table')
    (h' : InPlace R table' table'') : InPlace R table table'' := by
  induction h generalizing table'' with
  | nil => exact h'
  | cons related _ ih =>
    cases h' with
    | cons related' rest => exact .cons (step related related') (ih rest)

theorem of_mem (h : InPlace R table table') {r' : Row} (hr : r' ∈ table') : ∃ r ∈ table, R r r' := by
  induction h with
  | nil => cases hr
  | cons related _ ih =>
    rcases mem_cons.mp hr with rfl | hr
    · exact ⟨_, mem_cons_self, related⟩
    · obtain ⟨r, mem, related⟩ := ih hr
      exact ⟨r, mem_cons_of_mem _ mem, related⟩

theorem map_eq {Column : Type*} {column : Row → Column}
    (keeps : ∀ {a b}, R a b → column b = column a) (h : InPlace R table table') :
    table'.map column = table.map column := by
  induction h with
  | nil => rfl
  | cons related _ ih => rw [map_cons, map_cons, keeps related, ih]

theorem find? (keeps : ∀ {a b}, R a b → key b = key a) (h : InPlace R table table')
    (hr : table.find? (key · = k) = some r) :
    ∃ r', table'.find? (key · = k) = some r' ∧ R r r' := by
  induction h with
  | nil => cases hr
  | @cons a b _ _ related _ ih =>
    rw [find?_cons] at hr ⊢
    rw [keeps related]
    by_cases hk : key a = k
    · simp only [hk, decide_true, Option.some_inj] at hr ⊢
      subst hr
      exact ⟨b, rfl, related⟩
    · simp only [hk, decide_false] at hr ⊢
      exact ih hr

end InPlace

/-- Rows were rewritten where they stand, and rows like `New` added behind them. -/
def Extended (R : Row → Row → Prop) (New : Row → Prop) (table table' : List Row) : Prop :=
  ∃ kept added, InPlace R table kept ∧ table' = kept ++ added ∧ ∀ r ∈ added, New r

namespace Extended

variable {New : Row → Prop}

theorem of_inPlace (h : InPlace R table table') : Extended R New table table' :=
  ⟨table', [], h, (append_nil table').symm, fun _ hr => nomatch hr⟩

theorem append (refl : ∀ r, R r r) (h : New r) : Extended R New table (table ++ [r]) :=
  ⟨table, [r], .of_eq refl rfl, rfl, fun _ hr => mem_singleton.mp hr ▸ h⟩

theorem inPlace (step : ∀ {a b c}, R a b → R b c → R a c) (keeps : ∀ {a b}, New a → R a b → New b)
    (h : Extended R New table table') (h' : InPlace R table' table'') :
    Extended R New table table'' := by
  obtain ⟨kept, added, inPlace, rfl, new⟩ := h
  have hkept : InPlace R kept (table''.take kept.length) :=
    (forall₂_take_append table'' kept added h'.flip).flip
  have hadded : InPlace R added (table''.drop kept.length) :=
    (forall₂_drop_append table'' kept added h'.flip).flip
  refine ⟨_, _, inPlace.trans step hkept, (take_append_drop _ _).symm, fun r hr => ?_⟩
  obtain ⟨old, mem, related⟩ := hadded.of_mem hr
  exact keeps (new old mem) related

theorem of_mem (h : Extended R New table table') {r' : Row} (hr : r' ∈ table') :
    (∃ r ∈ table, R r r') ∨ New r' := by
  obtain ⟨kept, added, inPlace, rfl, new⟩ := h
  rcases mem_append.mp hr with hr | hr
  · exact .inl (inPlace.of_mem hr)
  · exact .inr (new r' hr)

end Extended

end

structure Dict (Key : Type u) (Value : Type v) where
  entries : List (Key × Value) := []
  nodup : (entries.map Prod.fst).Nodup := by simp

variable {Key : Type u} {Value : Type v} [DecidableEq Key] {k j : Key} {f : Option Value → Value}
  {entries : List (Key × Value)} {d : Dict Key Value} {v : Value}

/-- `d[k] = f(d.get(k))`. -/
def upsert (k : Key) (f : Option Value → Value) : List (Key × Value) → List (Key × Value)
  | [] => [(k, f none)]
  | (j, v) :: rest => if j = k then (j, f (some v)) :: rest else (j, v) :: upsert k f rest

@[simp] theorem mem_keys_upsert : j ∈ (upsert k f entries).map Prod.fst ↔
    j = k ∨ j ∈ entries.map Prod.fst := by
  induction entries with
  | nil => simp [upsert]
  | cons e rest ih =>
    rw [upsert]
    split
    case isTrue h => simp [h]
    case isFalse h =>
      rw [map_cons, mem_cons, ih, map_cons, mem_cons]
      tauto

theorem nodup_upsert (nodup : (entries.map Prod.fst).Nodup) :
    ((upsert k f entries).map Prod.fst).Nodup := by
  induction entries with
  | nil => simp [upsert]
  | cons e rest ih =>
    rw [upsert]
    split
    · exact nodup
    case isFalse h =>
      rw [map_cons, nodup_cons] at nodup ⊢
      refine ⟨?_, ih nodup.2⟩
      rw [mem_keys_upsert]
      exact not_or.2 ⟨h, nodup.1⟩

theorem exists_mem_upsert : ∃ old, (k, f old) ∈ upsert k f entries := by
  induction entries with
  | nil => exact ⟨none, by simp [upsert]⟩
  | cons e rest ih =>
    rw [upsert]
    split
    case isTrue h => exact ⟨some e.2, by simp [h]⟩
    case isFalse h =>
      obtain ⟨old, set⟩ := ih
      exact ⟨old, mem_cons_of_mem _ set⟩

theorem mem_upsert_of_mem {e : Key × Value} (h : e ∈ entries) :
    e ∈ upsert k f entries ∨ e.1 = k ∧ (k, f (some e.2)) ∈ upsert k f entries := by
  induction entries with
  | nil => cases h
  | cons x rest ih =>
    rw [upsert]
    rcases mem_cons.1 h with rfl | h
    · split
      case isTrue same => exact .inr ⟨same, by simp [same]⟩
      case isFalse => exact .inl mem_cons_self
    · split
      case isTrue => exact .inl (mem_cons_of_mem _ h)
      case isFalse =>
        exact (ih h).imp (mem_cons_of_mem _) (And.imp_right (mem_cons_of_mem _))

theorem of_mem_upsert {e : Key × Value} (h : e ∈ upsert k f entries) :
    e ∈ entries ∨ e = (k, f none) ∨ ∃ v, (k, v) ∈ entries ∧ e = (k, f (some v)) := by
  induction entries with
  | nil => simpa [upsert] using h
  | cons x rest ih =>
    rw [upsert] at h
    split at h
    case isTrue same =>
      subst same
      rcases mem_cons.1 h with rfl | h
      · exact .inr (.inr ⟨x.2, mem_cons_self, rfl⟩)
      · exact .inl (mem_cons_of_mem _ h)
    case isFalse =>
      rcases mem_cons.1 h with rfl | h
      · exact .inl mem_cons_self
      · rcases ih h with old | new | ⟨v, hv, rfl⟩
        · exact .inl (mem_cons_of_mem _ old)
        · exact .inr (.inl new)
        · exact .inr (.inr ⟨v, mem_cons_of_mem _ hv, rfl⟩)

def Dict.set (d : Dict Key Value) (k : Key) (f : Option Value → Value) : Dict Key Value :=
  ⟨upsert k f d.entries, nodup_upsert d.nodup⟩

def Dict.keys (d : Dict Key Value) : List Key := d.entries.map Prod.fst

@[simp] theorem Dict.mem_keys_set : j ∈ (d.set k f).keys ↔ j = k ∨ j ∈ d.keys := mem_keys_upsert

end TmVault.Relational
