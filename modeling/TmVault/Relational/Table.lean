import Mathlib.Data.Finset.Card
import Mathlib.Data.List.Basic
import Mathlib.Data.List.Dedup
import Mathlib.Data.List.MinMax
import Mathlib.Data.List.Perm.Subperm
import Mathlib.Data.List.Sort
import Mathlib.Data.Prod.Lex

namespace TmVault.Relational

open List

universe u v

section

variable {Error : Type u} {Value Result : Type v} {Item : Type u} {items : List Item}
  {x : Except Error Value}

section

variable {f : Value → Except Error Result} {r : Result}

theorem of_bind (h : (x >>= f) = .ok r) : ∃ a, x = .ok a ∧ f a = .ok r := by
  cases x with
  | error e => cases h
  | ok a => exact ⟨a, rfl, h⟩

variable {Value' Value'' : Type v} {y : Value → Except Error Value'}

theorem of_bind₂ {g : Value → Value' → Except Error Result}
    (h : (x >>= fun a => y a >>= g a) = .ok r) :
    ∃ a, x = .ok a ∧ ∃ b, y a = .ok b ∧ g a b = .ok r := by
  obtain ⟨a, ha, h⟩ := of_bind h
  exact ⟨a, ha, of_bind h⟩

theorem of_bind₃ {z : Value → Value' → Except Error Value''}
    {g : Value → Value' → Value'' → Except Error Result}
    (h : (x >>= fun a => y a >>= fun b => z a b >>= g a b) = .ok r) :
    ∃ a, x = .ok a ∧ ∃ b, y a = .ok b ∧ ∃ c, z a b = .ok c ∧ g a b c = .ok r := by
  obtain ⟨a, ha, h⟩ := of_bind h
  exact ⟨a, ha, of_bind₂ h⟩

theorem bind_congr_ok {g : Value → Except Error Result} (same : ∀ a, x = .ok a → f a = g a) :
    x >>= f = x >>= g := by
  cases x with
  | error => rfl
  | ok a => exact same a rfl

theorem bind_eq_ok : (x >>= f) = .ok r ↔ ∃ a, x = .ok a ∧ f a = .ok r := by
  refine ⟨of_bind, ?_⟩
  rintro ⟨a, rfl, h⟩
  exact h

end

theorem toOption_eq_some {a : Value} : x.toOption = some a ↔ x = .ok a := by
  cases x with
  | error e => simp [Except.toOption]
  | ok b => simp [Except.toOption]

def orFail (reason : Error) : Option Value → Except Error Value
  | some a => .ok a
  | none => .error reason

theorem orFail_eq_ok {reason : Error} {x : Option Value} {a : Value} :
    orFail reason x = .ok a ↔ x = some a := by
  cases x with
  | none => simp [orFail]
  | some b => simp [orFail]

def failIf (condition : Bool) (reason : Error) : Except Error PUnit :=
  if condition then .error reason else .ok ⟨⟩

theorem failIf_eq_ok {condition : Bool} {reason : Error} {u : PUnit} :
    failIf condition reason = .ok u ↔ condition = false := by
  cases condition with
  | false => simp [failIf]
  | true => simp [failIf]

theorem of_orFail {reason : Error} {x : Option Value} {f : Value → Except Error Result} {r : Result}
    (h : (orFail reason x >>= f) = .ok r) : ∃ a, x = some a ∧ f a = .ok r := by
  obtain ⟨a, found, h⟩ := of_bind h
  exact ⟨a, orFail_eq_ok.mp found, h⟩

theorem of_failIf {condition : Bool} {reason : Error} {f : PUnit → Except Error Result} {r : Result}
    (h : (failIf condition reason >>= f) = .ok r) : condition = false ∧ f ⟨⟩ = .ok r := by
  obtain ⟨_, passed, h⟩ := of_bind h
  exact ⟨failIf_eq_ok.mp passed, h⟩

theorem foldlM_ok {State : Type v} {step : State → Item → Except Error State}
    (Inv : State → List Item → Prop)
    (hstep : ∀ {s s' i is}, Inv s (i :: is) → step s i = .ok s' → Inv s' is) :
    ∀ {items s s'}, Inv s items → items.foldlM step s = .ok s' → Inv s' [] := by
  intro items
  induction items with
  | nil =>
    intro s s' inv h
    cases h
    exact inv
  | cons i items ih =>
    intro s s' inv h
    rw [foldlM_cons] at h
    obtain ⟨s'', hs, h⟩ := of_bind h
    exact ih (hstep inv hs) h

theorem forM_ok {check : Item → Except Error PUnit} :
    items.forM check = .ok ⟨⟩ ↔ ∀ i ∈ items, check i = .ok ⟨⟩ := by
  induction items with
  | nil => exact ⟨fun _ _ h => absurd h not_mem_nil, fun _ => rfl⟩
  | cons i items ih =>
    change (check i >>= fun _ => items.forM check) = .ok ⟨⟩ ↔ _
    rw [bind_eq_ok, forall_mem_cons, ← ih]
    exact ⟨fun ⟨_, h⟩ => h, fun h => ⟨⟨⟩, h⟩⟩

theorem mapM_some {convert : Item → Option Value} (h : ∀ i ∈ items, ∃ v, convert i = some v) :
    ∃ values, items.mapM convert = some values ∧
      ∀ v, v ∈ values ↔ ∃ i ∈ items, convert i = some v := by
  induction items with
  | nil => exact ⟨[], rfl, by simp⟩
  | cons i items ih =>
    obtain ⟨v, hv⟩ := h i mem_cons_self
    obtain ⟨values, hvalues, mem⟩ := ih fun j hj => h j (mem_cons_of_mem i hj)
    refine ⟨v :: values, by rw [mapM_cons, hv, hvalues]; rfl, fun w => ?_⟩
    rw [mem_cons, mem, exists_mem_cons_iff, hv, Option.some_inj, eq_comm]

theorem mapM_congr {f g : Item → Except Error Value}
    (h : ∀ i ∈ items, f i = g i) : items.mapM f = items.mapM g := by
  induction items with
  | nil => rfl
  | cons i items ih =>
    rw [mapM_cons, mapM_cons, h i mem_cons_self, ih fun j hj => h j (mem_cons_of_mem i hj)]

end

section

variable {Row : Type u} {Key : Type v} [DecidableEq Key] (key : Row → Key)

/-- `INSERT ... ON CONFLICT DO NOTHING` of one row into a table with the unique index `key`. -/
def insertIgnore (table : List Row) (row : Row) : List Row :=
  if key row ∈ table.map key then table else table ++ [row]

def insertAllIgnore (table rows : List Row) : List Row := rows.foldl (insertIgnore key) table

variable {key} {table rows : List Row} {row r : Row} {k : Key}

@[simp] theorem mem_insertIgnore :
    r ∈ insertIgnore key table row ↔ r ∈ table ∨ (r = row ∧ key row ∉ table.map key) := by
  rw [insertIgnore]
  split <;> simp_all

@[simp] theorem keys_insertIgnore :
    k ∈ (insertIgnore key table row).map key ↔ k ∈ table.map key ∨ k = key row := by
  rw [insertIgnore]
  split
  · constructor
    · exact Or.inl
    · rintro (h | rfl) <;> assumption
  · simp

theorem of_find? (h : table.find? (key · = k) = some r) : key r = k := by simpa using find?_some h

omit [DecidableEq Key] in
theorem nodup_snoc (nodup : (table.map key).Nodup) (fresh : key row ∉ table.map key) :
    ((table ++ [row]).map key).Nodup := by
  rw [map_append, map_singleton, ← concat_eq_append]
  exact nodup.concat fresh

omit [DecidableEq Key] in
/-- Rows with distinct keys, each the name of one of `others`, use all the names if they are as
many. -/
theorem exists_key_eq {Other : Type u} {others : List Other} {name : Other → Key} {o : Other}
    (nodup : (table.map key).Nodup) (named : ∀ r ∈ table, ∃ o ∈ others, name o = key r)
    (le : others.length ≤ table.length) (ho : o ∈ others) : ∃ r ∈ table, key r = name o := by
  have sub : table.map key ⊆ others.map name := by
    intro k hk
    obtain ⟨r, hr, rfl⟩ := mem_map.mp hk
    exact mem_map.mpr (named r hr)
  have perm := (nodup.subperm sub).perm_of_length_le (by simpa using le)
  exact mem_map.mp (perm.mem_iff.mpr (mem_map_of_mem ho))

theorem nodup_insertIgnore (nodup : (table.map key).Nodup) :
    ((insertIgnore key table row).map key).Nodup := by
  rw [insertIgnore]
  split
  · exact nodup
  · rename_i fresh
    exact nodup_snoc nodup fresh

theorem nodup_insertAllIgnore (nodup : (table.map key).Nodup) :
    ((insertAllIgnore key table rows).map key).Nodup := by
  induction rows generalizing table with
  | nil => exact nodup
  | cons row rows ih => exact ih (nodup_insertIgnore nodup)

@[simp] theorem keys_insertAllIgnore :
    k ∈ (insertAllIgnore key table rows).map key ↔ k ∈ table.map key ∨ k ∈ rows.map key := by
  induction rows generalizing table with
  | nil => simp [insertAllIgnore]
  | cons row rows ih =>
    rw [insertAllIgnore, foldl_cons, ← insertAllIgnore, ih, keys_insertIgnore,
      map_cons, mem_cons, or_assoc]

@[simp] theorem mem_insertAllIgnore_id {table rows : List Key} :
    k ∈ insertAllIgnore id table rows ↔ k ∈ table ∨ k ∈ rows := by
  simpa using @keys_insertAllIgnore Key Key _ id table rows k

theorem subset_insertAllIgnore (rows : List Row) (h : r ∈ table) : r ∈ insertAllIgnore key table rows := by
  induction rows generalizing table with
  | nil => exact h
  | cons row rows ih => exact ih (mem_insertIgnore.mpr (.inl h))

theorem mem_of_mem_insertAllIgnore (h : r ∈ insertAllIgnore key table rows) :
    r ∈ table ∨ (r ∈ rows ∧ key r ∉ table.map key) := by
  induction rows generalizing table with
  | nil => exact .inl h
  | cons row rows ih =>
    rcases ih h with hr | ⟨hr, fresh⟩
    · rcases mem_insertIgnore.mp hr with hr | ⟨rfl, fresh⟩
      · exact .inl hr
      · exact .inr ⟨mem_cons_self, fresh⟩
    · refine .inr ⟨mem_cons_of_mem row hr, fun hk => fresh ?_⟩
      exact keys_insertIgnore.mpr (.inl hk)

theorem filter_insertAllIgnore {p : Row → Bool} (h : ∀ r ∈ rows, p r = false) :
    (insertAllIgnore key table rows).filter p = table.filter p := by
  induction rows generalizing table with
  | nil => rfl
  | cons row rows ih =>
    rw [insertAllIgnore, foldl_cons, ← insertAllIgnore,
      ih fun r hr => h r (mem_cons_of_mem row hr), insertIgnore]
    split
    · rfl
    · rw [filter_append, filter_singleton, h row mem_cons_self, cond_false, append_nil]

theorem mem_insertAllIgnore (distinct : (rows.map key).Nodup) :
    r ∈ insertAllIgnore key table rows ↔ r ∈ table ∨ (r ∈ rows ∧ key r ∉ table.map key) := by
  refine ⟨mem_of_mem_insertAllIgnore, ?_⟩
  rintro (h | ⟨h, fresh⟩)
  · exact subset_insertAllIgnore rows h
  · induction rows generalizing table with
    | nil => cases h
    | cons row rows ih =>
      rw [map_cons, nodup_cons] at distinct
      rcases mem_cons.mp h with rfl | h
      · have inserted : r ∈ insertIgnore key table r := mem_insertIgnore.mpr (.inr ⟨rfl, fresh⟩)
        exact subset_insertAllIgnore rows inserted
      · refine ih distinct.2 h fun hk => ?_
        rcases keys_insertIgnore.mp hk with hk | hk
        · exact fresh hk
        · exact distinct.1 (hk ▸ mem_map_of_mem h)

end

section

variable {Row : Type u} {Key : Type v} [DecidableEq Key] {key : Row → Key} {rows : List Row}
  {earlier : Row → Row → Bool}

theorem find?_key_eq_some {table : List Row} (nodup : (table.map key).Nodup) {k : Key} {r : Row} :
    table.find? (fun row => decide (key row = k)) = some r ↔ r ∈ table ∧ key r = k := by
  refine ⟨fun h => ⟨mem_of_find?_eq_some h, of_find? h⟩, ?_⟩
  rintro ⟨hr, rfl⟩
  have known : (table.find? (key · = key r)).isSome := find?_isSome.mpr ⟨r, hr, by simp⟩
  obtain ⟨found, h⟩ := Option.isSome_iff_exists.mp known
  rw [h, inj_on_of_nodup_map nodup (mem_of_find?_eq_some h) hr (of_find? h)]

def chunksFuel (n : Nat) : Nat → List Row → List (List Row)
  | 0, _ => []
  | _, [] => []
  | fuel + 1, row :: rows => (row :: rows).take n :: chunksFuel n fuel ((row :: rows).drop n)

def chunks (n : Nat) (rows : List Row) : List (List Row) := chunksFuel n rows.length rows

theorem chunksFuel_flatten {n fuel : Nat} (hn : 0 < n)
    (hfuel : rows.length ≤ fuel) : (chunksFuel n fuel rows).flatten = rows := by
  induction fuel generalizing rows with
  | zero =>
    rw [eq_nil_of_length_eq_zero (Nat.le_zero.mp hfuel)]
    rfl
  | succ fuel ih =>
    cases rows with
    | nil => rfl
    | cons row rows =>
      rw [chunksFuel, flatten_cons, ih, take_append_drop]
      rw [length_drop]
      omega

theorem chunksFuel_eq {n fuel : Nat} (hn : 0 < n) (hfuel : rows.length ≤ fuel) :
    chunksFuel n fuel rows = chunks n rows := by
  have step : ∀ {fuel fuel' : Nat} {rows : List Row}, rows.length ≤ fuel → rows.length ≤ fuel' →
      chunksFuel n fuel rows = chunksFuel n fuel' rows := by
    intro fuel
    induction fuel with
    | zero =>
      intro fuel' rows h _
      rw [eq_nil_of_length_eq_zero (Nat.le_zero.mp h)]
      cases fuel' <;> rfl
    | succ fuel ih =>
      intro fuel' rows h h'
      cases rows with
      | nil => cases fuel' <;> rfl
      | cons row rows =>
        cases fuel' with
        | zero => cases h'
        | succ fuel' =>
          rw [length_cons] at h h'
          rw [chunksFuel, chunksFuel, ih]
          · rw [length_drop, length_cons]
            omega
          · rw [length_drop, length_cons]
            omega
  exact step hfuel (Nat.le_refl _)

theorem chunks_of_ne_nil {n : Nat} (hn : 0 < n) (h : rows ≠ []) :
    chunks n rows = rows.take n :: chunks n (rows.drop n) := by
  cases rows with
  | nil => exact absurd rfl h
  | cons row rows =>
    rw [chunks, length_cons, chunksFuel, chunksFuel_eq hn]
    rw [length_drop, length_cons]
    omega

theorem chunks_flatten {n : Nat} (hn : 0 < n) (rows : List Row) : (chunks n rows).flatten = rows :=
  chunksFuel_flatten hn (Nat.le_refl _)

def orderByFirst (earlier : Row → Row → Bool) : List Row → Option Row
  | [] => none
  | row :: rows =>
    match orderByFirst earlier rows with
    | none => some row
    | some best => if earlier best row then some best else some row

theorem orderByFirst_mem {row : Row} (h : orderByFirst earlier rows = some row) : row ∈ rows := by
  induction rows generalizing row with
  | nil => cases h
  | cons r rows ih =>
    rw [orderByFirst] at h
    split at h
    · cases h
      exact mem_cons_self
    · rename_i found
      split at h
      · cases h
        exact mem_cons_of_mem r (ih found)
      · cases h
        exact mem_cons_self

theorem orderByFirst_eq_none (h : orderByFirst earlier rows = none) : rows = [] := by
  cases rows with
  | nil => rfl
  | cons row rows =>
    rw [orderByFirst] at h
    split at h
    · cases h
    · split at h
      · cases h
      · cases h

theorem orderByFirst_first {best : Row} (asymm : ∀ a b, earlier a b = true → earlier b a = false)
    (trans : ∀ a b c, earlier a b = false → earlier b c = false → earlier a c = false)
    (h : orderByFirst earlier rows = some best) : ∀ r ∈ rows, earlier r best = false := by
  have irrefl : ∀ a, earlier a a = false := by
    intro a
    cases same : earlier a a with
    | false => rfl
    | true => exact same.symm.trans (asymm a a same)
  induction rows generalizing best with
  | nil => cases h
  | cons row rows ih =>
    rw [orderByFirst] at h
    cases found : orderByFirst earlier rows with
    | none =>
      simp only [found, Option.some.injEq] at h
      subst h
      rw [orderByFirst_eq_none found]
      simp [irrefl]
    | some first =>
      simp only [found] at h
      split at h
      case isTrue before =>
        cases h
        intro r hr
        rcases mem_cons.mp hr with rfl | hr
        · exact asymm _ _ before
        · exact ih found r hr
      case isFalse notBefore =>
        cases h
        intro r hr
        rcases mem_cons.mp hr with rfl | hr
        · exact irrefl r
        · exact trans r first _ (ih found r hr) (Bool.eq_false_iff.mpr notBefore)

end

/-! A view keeps some rows of a table. A read that selects kept rows only is the same on the view as
on the table. -/

section

variable {Row : Type*} {table : List Row} {keep select : Row → Bool}

section

variable (h : ∀ r ∈ table, select r = true → keep r = true)

include h

theorem filter_view : (table.filter keep).filter select = table.filter select := by
  rw [filter_filter]
  apply filter_congr
  intro r hr
  cases hs : select r with
  | false => rfl
  | true => rw [h r hr hs, Bool.true_and]

theorem find?_view : (table.filter keep).find? select = table.find? select := by
  rw [← List.head?_filter, ← List.head?_filter, filter_view h]

theorem any_view : (table.filter keep).any select = table.any select := by
  rw [Bool.eq_iff_iff, any_eq_true, any_eq_true]
  constructor
  · rintro ⟨r, hr, hs⟩
    exact ⟨r, (mem_filter.mp hr).1, hs⟩
  · rintro ⟨r, hr, hs⟩
    exact ⟨r, mem_filter.mpr ⟨hr, h r hr hs⟩, hs⟩

end

theorem filter_update {update : Row → Row} (h : ∀ r ∈ table, update r ≠ r →
    select r = false ∧ select (update r) = false) :
    (table.map update).filter select = table.filter select := by
  induction table with
  | nil => rfl
  | cons r table ih =>
    rw [map_cons, filter_cons, filter_cons, ih fun r' hr' => h r' (mem_cons_of_mem r hr')]
    by_cases same : update r = r
    · rw [same]
    · obtain ⟨out, out'⟩ := h r mem_cons_self same
      rw [out, out']
      rfl

end

/-! Reading a table page by page, each page asked for from the last key of the page before. -/

section

variable {Row : Type u} {Key : Type v} (page : Key → List Row) (key : Row → Key)

def walkPages : Nat → Key → List Row
  | 0, _ => []
  | fuel + 1, after =>
    match (page after).getLast? with
    | none => []
    | some last => page after ++ walkPages fuel (key last)

variable {page key} {after : Key}

theorem walkPages_succ {last : Row} (h : (page after).getLast? = some last) (fuel : Nat) :
    walkPages page key (fuel + 1) after = page after ++ walkPages page key fuel (key last) := by
  rw [walkPages, h]

theorem exists_page_of_mem_walkPages {row : Row} {fuel : Nat}
    (h : row ∈ walkPages page key fuel after) : ∃ k, row ∈ page k := by
  induction fuel generalizing after with
  | zero => cases h
  | succ fuel ih =>
    cases hlast : (page after).getLast? with
    | none =>
      rw [walkPages, hlast] at h
      cases h
    | some last =>
      rw [walkPages_succ hlast, List.mem_append] at h
      rcases h with h | h
      · exact ⟨after, h⟩
      · exact ih h

theorem walkPages_congr {page' : Key → List Row} (Reached : Key → Prop)
    (same : ∀ k, Reached k → page k = page' k)
    (next : ∀ {k last}, Reached k → (page k).getLast? = some last → Reached (key last))
    {fuel : Nat} (start : Reached after) :
    walkPages page key fuel after = walkPages page' key fuel after := by
  induction fuel generalizing after with
  | zero => rfl
  | succ fuel ih =>
    cases hlast : (page after).getLast? with
    | none => rw [walkPages, walkPages, ← same after start, hlast]
    | some last =>
      have hlast' : (page' after).getLast? = some last := same after start ▸ hlast
      rw [walkPages_succ hlast, walkPages_succ hlast', same after start, ih (next start hlast)]

end

section

variable {α : Type*} {τ : Type*} [LinearOrder τ] (time : α → τ)

def newestFirst (l : List α) : List α := l.insertionSort fun a b => time b ≤ time a

variable {l pre post : List α} {c a : α}

@[simp] theorem mem_newestFirst : a ∈ newestFirst time l ↔ a ∈ l := mem_insertionSort _

theorem pairwise_newestFirst : (newestFirst time l).Pairwise fun a b => time b ≤ time a :=
  haveI : Std.Total fun a b : α => time b ≤ time a := ⟨fun a b => le_total (time b) (time a)⟩
  haveI : IsTrans α fun a b => time b ≤ time a := ⟨fun _ _ _ h h' => h'.trans h⟩
  pairwise_insertionSort _ l

theorem nodup_newestFirst (h : l.Nodup) : (newestFirst time l).Nodup :=
  (perm_insertionSort _ _).nodup_iff.mpr h

variable {time} [DecidableEq α]

theorem pair_sublist_of_idxOf (hc : c ∈ l) (ha : a ∈ l) (ne : c ≠ a) (h : l.idxOf c ≤ l.idxOf a) :
    [c, a].Sublist l := by
  induction l with
  | nil => cases hc
  | cons x l ih =>
    by_cases hx : x = c
    · subst hx
      have tail : a ∈ l := (mem_cons.mp ha).resolve_left ne.symm
      exact (singleton_sublist.mpr tail).cons_cons x
    · have hxa : x ≠ a := by
        rintro rfl
        rw [idxOf_cons_self, Nat.le_zero, idxOf_cons_ne l hx] at h
        exact Nat.succ_ne_zero _ h
      rw [idxOf_cons_ne l hx, idxOf_cons_ne l hxa] at h
      have hc' := (mem_cons.mp hc).resolve_left (Ne.symm hx)
      have ha' := (mem_cons.mp ha).resolve_left hxa.symm
      exact (ih hc' ha' (Nat.le_of_succ_le_succ h)).cons x

theorem not_before_newest {p : α → Bool} (nodup : l.Nodup)
    (hc : (l.filter p).argmax time = some c) (split : newestFirst time l = pre ++ c :: post)
    (ha : a ∈ pre) : p a = false := by
  rw [Bool.eq_false_iff]
  intro hp
  have nodup' := nodup_newestFirst time nodup
  have sorted := pairwise_newestFirst time (l := l)
  rw [split] at nodup' sorted
  have mem : a ∈ l := (mem_newestFirst time).mp (split ▸ mem_append_left _ ha)
  have later : time c ≤ time a := (pairwise_append.mp sorted).2.2 a ha c mem_cons_self
  obtain ⟨hcl, upper, first⟩ := argmax_eq_some_iff.mp hc
  have hal : a ∈ l.filter p := mem_filter.mpr ⟨mem, hp⟩
  have ne : c ≠ a := by
    rintro rfl
    exact disjoint_of_nodup_append nodup' ha mem_cons_self
  -- the class lists `c` before `a`, and the sort is stable
  have order : [c, a].Sublist (newestFirst time l) := by
    have : Std.Total fun a b : α => time b ≤ time a := ⟨fun a b => le_total (time b) (time a)⟩
    have : IsTrans α fun a b => time b ≤ time a := ⟨fun _ _ _ h h' => h'.trans h⟩
    exact pair_sublist_insertionSort (upper a hal)
      ((pair_sublist_of_idxOf hcl hal ne (first a hal later)).trans filter_sublist)
  rw [split] at order
  have reversed : [a, c].Sublist (pre ++ c :: post) :=
    (singleton_sublist.mpr ha).append (singleton_sublist.mpr mem_cons_self)
  have := nodup'.perm_iff_eq_of_sublist order reversed |>.mp (List.Perm.swap a c [])
  exact ne (List.cons.inj this).1

theorem argmax_filter {p : α → Bool} (nodup : l.Nodup) (h : l.argmax time = some c)
    (hp : p c = true) : (l.filter p).argmax time = some c := by
  have hc : c ∈ l.filter p := mem_filter.mpr ⟨argmax_mem h, hp⟩
  cases hd : (l.filter p).argmax time with
  | none => exact absurd (argmax_eq_none.mp hd ▸ hc) not_mem_nil
  | some d =>
    obtain ⟨hcl, upper, first⟩ := argmax_eq_some_iff.mp h
    obtain ⟨hdp, upper', first'⟩ := argmax_eq_some_iff.mp hd
    have hdl := mem_of_mem_filter hdp
    by_contra ne
    have ne : c ≠ d := fun h => ne (by rw [h])
    have order := pair_sublist_of_idxOf hcl hdl ne (first d hdl (upper' c hc))
    have order' := pair_sublist_of_idxOf hdp hc ne.symm (first' c hc (upper d hdl))
    have same := nodup.perm_iff_eq_of_sublist order (order'.trans filter_sublist)
      |>.mp (List.Perm.swap d c [])
    exact ne (List.cons.inj same).1

end

section

variable {α : Type*} {κ : Type*} [DecidableEq κ] {τ : Type*} [LinearOrder τ]

variable (key : α → κ) (time : α → τ)

def rowsWith (k : κ) (rows : List α) : List α := rows.filter (key · = k)

/-- `SELECT DISTINCT ON (key) ... ORDER BY key, time DESC`: the newest row of each key. -/
def newestPerKey (rows : List α) : List α :=
  (rows.map key).dedup.filterMap fun k => (rowsWith key k rows).argmax time

variable {key time} {rows : List α} {p : α → Bool} {r : α}

theorem mem_newestPerKey :
    r ∈ newestPerKey key time rows ↔ (rowsWith key (key r) rows).argmax time = some r := by
  rw [newestPerKey, mem_filterMap]
  constructor
  · rintro ⟨k, -, hk⟩
    have hr := (mem_filter.mp (argmax_mem hk)).2
    rwa [of_decide_eq_true hr]
  · intro h
    have hr := mem_of_mem_filter (argmax_mem h)
    exact ⟨key r, mem_dedup.mpr (mem_map_of_mem hr), h⟩

theorem rowsWith_filter (k : κ) : rowsWith key k (rows.filter p) = (rowsWith key k rows).filter p := by
  rw [rowsWith, rowsWith, filter_filter, filter_filter]
  apply filter_congr
  intro x _
  exact Bool.and_comm _ _

theorem mem_newestPerKey_filter [DecidableEq α] (nodup : rows.Nodup)
    (steady : ∀ r ∈ rows, p r = true → ∀ n, (rowsWith key (key r) rows).argmax time = some n →
      p n = true) :
    r ∈ newestPerKey key time (rows.filter p) ↔ r ∈ newestPerKey key time rows ∧ p r = true := by
  rw [mem_newestPerKey, mem_newestPerKey, rowsWith_filter]
  have nodup' : (rowsWith key (key r) rows).Nodup := nodup.filter _
  constructor
  · intro h
    obtain ⟨mem, hp⟩ := mem_filter.mp (argmax_mem h)
    cases hn : (rowsWith key (key r) rows).argmax time with
    | none => exact absurd (argmax_eq_none.mp hn ▸ mem) not_mem_nil
    | some n =>
      have hpn := steady r (mem_of_mem_filter mem) hp n hn
      exact ⟨(argmax_filter nodup' hn hpn).symm.trans h, hp⟩
  · rintro ⟨h, hp⟩
    exact argmax_filter nodup' h hp

theorem exists_newest (key : α → κ) (time : α → τ) (hr : r ∈ rows) :
    ∃ m ∈ newestPerKey key time rows, m ∈ rows ∧ key m = key r ∧
      ∀ c ∈ rows, key c = key r → time c ≤ time m := by
  have mem : r ∈ rowsWith key (key r) rows := mem_filter.mpr ⟨hr, decide_eq_true rfl⟩
  cases h : (rowsWith key (key r) rows).argmax time with
  | none => exact absurd (argmax_eq_none.mp h ▸ mem) not_mem_nil
  | some m =>
    obtain ⟨hm, hkey⟩ := mem_filter.mp (argmax_mem h)
    have hkey := of_decide_eq_true hkey
    refine ⟨m, mem_newestPerKey.mpr (hkey ▸ h), hm, hkey, fun c hc hc' => ?_⟩
    exact le_of_mem_argmax (mem_filter.mpr ⟨hc, decide_eq_true hc'⟩) h

section

variable (apart : ∀ a ∈ rows, ∀ b ∈ rows, key a = key b → time a = time b → a = b)

include apart

theorem mem_newestPerKey_iff : r ∈ newestPerKey key time rows ↔
      r ∈ rows ∧ ∀ c ∈ rows, key c = key r → time c ≤ time r := by
  constructor
  · intro h
    rw [mem_newestPerKey] at h
    refine ⟨mem_of_mem_filter (argmax_mem h), fun c hc hkey => ?_⟩
    exact le_of_mem_argmax (mem_filter.mpr ⟨hc, decide_eq_true hkey⟩) h
  · rintro ⟨hr, upper⟩
    obtain ⟨m, newest, hm, hkey, last⟩ := exists_newest key time hr
    have same : m = r := apart m hm r hr hkey (le_antisymm (upper m hm hkey) (last r hr rfl))
    exact same ▸ newest

theorem newestPerKey_agree {τ' : Type*} [LinearOrder τ'] {time' : α → τ'}
    (apart' : ∀ a ∈ rows, ∀ b ∈ rows, key a = key b → time' a = time' b → a = b) :
    (∀ r, r ∈ newestPerKey key time rows ↔ r ∈ newestPerKey key time' rows) ↔
      ∀ a ∈ rows, ∀ b ∈ rows, key a = key b → time' a < time' b →
        ∃ c ∈ rows, key c = key a ∧ time a < time c := by
  constructor
  · intro agree a ha b hb hkey behind
    by_contra! last
    have newest : a ∈ newestPerKey key time rows := (mem_newestPerKey_iff apart).mpr ⟨ha, last⟩
    have upper := ((mem_newestPerKey_iff apart').mp ((agree a).mp newest)).2
    exact (upper b hb hkey.symm).not_gt behind
  · intro ahead r
    rw [mem_newestPerKey_iff apart, mem_newestPerKey_iff apart']
    constructor
    · rintro ⟨hr, upper⟩
      refine ⟨hr, fun c hc hkey => not_lt.mp fun behind => ?_⟩
      obtain ⟨d, hd, hdr, later⟩ := ahead r hr c hc hkey.symm behind
      exact (upper d hd hdr).not_gt later
    · rintro ⟨hr, upper⟩
      -- the newest row in the first order is not behind `r` in the second, so it is `r`
      obtain ⟨m, -, hm, hmr, last⟩ := exists_newest key time hr
      have notBehind : time' r ≤ time' m := by
        refine not_lt.mp fun behind => ?_
        obtain ⟨d, hd, hdm, later⟩ := ahead m hm r hr hmr behind
        exact (last d hd (hdm.trans hmr)).not_gt later
      have same : m = r := apart' m hm r hr hmr (le_antisymm (upper m hm hmr) notBehind)
      exact ⟨hr, same ▸ last⟩

end

end

variable {α : Type*} {κ : Type*} [DecidableEq κ] (key : α → κ) (rank : α → Nat) (limit : Nat)

def seat (s : α) (winners : List α) : List α := winners.map fun x => if key x = key s then s else x

/-- Open up to `limit` buckets along the list and keep the best row of each, the earlier of equals;
the first row of a bucket too many ends the scan. -/
def claimBuckets : List α → List α → List α
  | [], winners => winners
  | s :: rest, winners =>
    match winners.find? (key · = key s) with
    | none => if limit ≤ winners.length then winners else claimBuckets rest (winners ++ [s])
    | some current =>
      claimBuckets rest (if rank current < rank s then seat key s winners else winners)

variable {key rank limit} {c s x current : α} {pre post winners : List α}

@[simp] theorem keys_seat : (seat key s winners).map key = winners.map key := by
  rw [seat, map_map]
  apply map_congr_left
  intro x _
  by_cases h : key x = key s <;> simp [h]

theorem nodup_keys_seat (nodup : (winners.map key).Nodup) :
    ((seat key s winners).map key).Nodup := by
  rwa [keys_seat]

theorem mem_seat_self (h : key s ∈ winners.map key) : s ∈ seat key s winners := by
  obtain ⟨x, hx, hk⟩ := mem_map.mp h
  exact mem_map.mpr ⟨x, hx, if_pos hk⟩

theorem mem_seat_of_ne (hx : x ∈ winners) (h : key x ≠ key s) : x ∈ seat key s winners :=
  mem_map.mpr ⟨x, hx, if_neg h⟩

theorem of_mem_seat (hx : x ∈ seat key s winners) : x = s ∨ x ∈ winners := by
  obtain ⟨y, hy, rfl⟩ := mem_map.mp hx
  split
  · exact .inl rfl
  · exact .inr hy

theorem notMem_keys_of_find? (h : winners.find? (key · = key s) = none) :
    key s ∉ winners.map key := by
  intro hk
  obtain ⟨x, hx, hks⟩ := mem_map.mp hk
  exact find?_eq_none.mp h x hx (decide_eq_true hks)

omit [DecidableEq κ] in
theorem nodup_keys_append (nodup : (winners.map key).Nodup) (h : key s ∉ winners.map key) :
    ((winners ++ [s]).map key).Nodup := by
  rw [map_append]
  exact nodup_append_comm.mp (nodup_cons.mpr ⟨h, nodup⟩)

theorem of_mem_claimBuckets {l : List α} (hx : x ∈ claimBuckets key rank limit l winners) :
    x ∈ l ∨ x ∈ winners := by
  induction l generalizing winners with
  | nil => exact .inr hx
  | cons s rest ih =>
    rw [claimBuckets] at hx
    split at hx
    case h_1 =>
      split at hx
      · exact .inr hx
      · rcases ih hx with h | h
        · exact .inl (mem_cons_of_mem s h)
        · rcases mem_append.mp h with h | h
          · exact .inr h
          · exact .inl (mem_singleton.mp h ▸ mem_cons_self)
    case h_2 current _ =>
      split at hx
      · rcases ih hx with h | h
        · exact .inl (mem_cons_of_mem s h)
        · rcases of_mem_seat h with rfl | h
          · exact .inl mem_cons_self
          · exact .inr h
      · exact (ih hx).imp_left (mem_cons_of_mem s)

theorem mem_claimBuckets_of_mem (nodup : (winners.map key).Nodup) (hc : c ∈ winners)
    (after : ∀ a ∈ post, key a = key c → rank a ≤ rank c) :
    c ∈ claimBuckets key rank limit post winners := by
  induction post generalizing winners with
  | nil => exact hc
  | cons s rest ih =>
    have after' := fun a ha => after a (mem_cons_of_mem s ha)
    rw [claimBuckets]
    split
    case h_1 fresh =>
      split
      · exact hc
      · exact ih (nodup_keys_append nodup (notMem_keys_of_find? fresh))
          (mem_append_left _ hc) after'
    case h_2 current found =>
      obtain ⟨hcur, hkey⟩ := (find?_key_eq_some nodup).mp found
      split
      case isTrue better =>
        have other : key c ≠ key s := by
          intro same
          have : current = c := inj_on_of_nodup_map nodup hcur hc (hkey.trans same.symm)
          subst this
          exact absurd (after s mem_cons_self same.symm) (Nat.not_le.mpr better)
        exact ih (nodup_keys_seat nodup) (mem_seat_of_ne hc other) after'
      case isFalse => exact ih nodup hc after'

/-- The best row of a bucket, the first of its rank there, wins it exactly when fewer than `limit`
other buckets come before the row. -/
theorem mem_claimBuckets (nodup : (winners.map key).Nodup) (len : winners.length ≤ limit)
    (held : ∀ x ∈ winners, x ≠ c ∧ (key x = key c → rank x < rank c))
    (before : ∀ a ∈ pre, a ≠ c ∧ (key a = key c → rank a < rank c))
    (after : ∀ a ∈ post, key a = key c → rank a ≤ rank c) :
    c ∈ claimBuckets key rank limit (pre ++ c :: post) winners ↔
      (((winners ++ pre).map key).toFinset.erase (key c)).card < limit := by
  induction pre generalizing winners with
  | nil =>
    rw [nil_append, append_nil, claimBuckets]
    split
    case h_1 fresh =>
      have free := notMem_keys_of_find? fresh
      rw [Finset.erase_eq_of_notMem (by simpa using free), toFinset_card_of_nodup nodup, length_map]
      split
      case isTrue full => exact iff_of_false (fun h => (held c h).1 rfl) (Nat.not_lt.mpr full)
      case isFalse room =>
        refine iff_of_true ?_ (Nat.not_le.mp room)
        exact mem_claimBuckets_of_mem (nodup_keys_append nodup free) (by simp) after
    case h_2 current found =>
      obtain ⟨hcur, hkey⟩ := (find?_key_eq_some nodup).mp found
      have taken : key c ∈ winners.map key := hkey ▸ mem_map_of_mem hcur
      rw [if_pos ((held current hcur).2 hkey)]
      refine iff_of_true
        (mem_claimBuckets_of_mem (nodup_keys_seat nodup) (mem_seat_self taken) after) ?_
      rw [Finset.card_erase_of_mem (by simpa using taken), toFinset_card_of_nodup nodup, length_map]
      have := length_pos_of_mem hcur
      omega
  | cons s pre ih =>
    have before' := fun a ha => before a (mem_cons_of_mem s ha)
    rw [cons_append, claimBuckets]
    split
    case h_1 fresh =>
      have free := notMem_keys_of_find? fresh
      split
      case isTrue full =>
        refine iff_of_false (fun h => (held c h).1 rfl) (Nat.not_lt.mpr (full.trans ?_))
        have opened : insert (key s) (winners.map key).toFinset ⊆
            ((winners ++ s :: pre).map key).toFinset := by
          intro k
          simp only [Finset.mem_insert, mem_toFinset, map_append, map_cons, mem_append, mem_cons]
          rintro (rfl | h)
          · exact .inr (.inl rfl)
          · exact .inl h
        have count := Finset.card_le_card opened
        rw [Finset.card_insert_of_notMem (by simpa using free), toFinset_card_of_nodup nodup,
          length_map] at count
        exact (Nat.le_sub_one_of_lt count).trans Finset.pred_card_le_card_erase
      case isFalse room =>
        rw [ih (nodup_keys_append nodup free) (by rw [length_append]; exact Nat.not_le.mp room) ?_ before',
          append_assoc, singleton_append]
        intro x hx
        rcases mem_append.mp hx with hx | hx
        · exact held x hx
        · rw [mem_singleton.mp hx]
          exact before s mem_cons_self
    case h_2 current found =>
      obtain ⟨hcur, hkey⟩ := (find?_key_eq_some nodup).mp found
      have taken : key s ∈ winners.map key := hkey ▸ mem_map_of_mem hcur
      have same : ((winners ++ s :: pre).map key).toFinset = ((winners ++ pre).map key).toFinset := by
        ext k
        simp only [mem_toFinset, map_append, map_cons, mem_append, mem_cons]
        constructor
        · rintro (h | rfl | h)
          · exact .inl h
          · exact .inl taken
          · exact .inr h
        · rintro (h | h)
          · exact .inl h
          · exact .inr (.inr h)
      rw [same]
      split
      case isTrue =>
        rw [ih (nodup_keys_seat nodup) (by rwa [seat, length_map]) ?_ before', map_append,
          keys_seat, ← map_append]
        intro x hx
        rcases of_mem_seat hx with rfl | hx
        · exact before x mem_cons_self
        · exact held x hx
      case isFalse => exact ih nodup len held before'

/-- The newest row of a class that outranks all others, over buckets of time, wins exactly when
fewer than `limit` other buckets hold a newer row. -/
theorem newest_claims_iff {τ : Type*} [LinearOrder τ] [DecidableEq α] {time : α → τ} (k : τ → κ)
    {l : List α} {p : α → Bool} (nodup : l.Nodup) (hc : (l.filter p).argmax time = some c)
    (top : ∀ a ∈ l, rank a ≤ rank c) (lower : ∀ a ∈ l, p a = false → rank a < rank c) :
    c ∈ claimBuckets (fun a => k (time a)) rank limit (newestFirst time l) [] ↔
      (((l.filter (time c < time ·)).map fun a => k (time a)).toFinset.erase
        (k (time c))).card < limit := by
  have hcl : c ∈ newestFirst time l :=
    (mem_newestFirst time).mpr (mem_of_mem_filter (argmax_mem hc))
  obtain ⟨pre, post, split⟩ := append_of_mem hcl
  have mem : ∀ {a}, a ∈ l ↔ a ∈ pre ++ c :: post := by
    intro a
    rw [← split, mem_newestFirst]
  have nodup' := nodup_newestFirst time nodup
  have sorted := pairwise_newestFirst time (l := l)
  rw [split] at nodup' sorted
  have apart : ∀ a ∈ pre, a ≠ c := by
    rintro a ha rfl
    exact disjoint_of_nodup_append nodup' ha mem_cons_self
  have before : ∀ a ∈ pre, a ≠ c ∧ (k (time a) = k (time c) → rank a < rank c) := fun a ha =>
    ⟨apart a ha, fun _ => lower a (mem.mpr (mem_append_left _ ha))
      (not_before_newest nodup hc split ha)⟩
  have after : ∀ a ∈ post, k (time a) = k (time c) → rank a ≤ rank c := fun a ha _ =>
    top a (mem.mpr (mem_append_right _ (mem_cons_of_mem c ha)))
  have unopened : (([] : List α).map fun a => k (time a)).Nodup := nodup_nil
  rw [split, mem_claimBuckets unopened (Nat.zero_le _) nofun before after, nil_append]
  apply iff_of_eq
  congr 2
  -- rows of the row's own time share its bucket, so only the strictly newer ones count
  ext b
  simp only [Finset.mem_erase, mem_toFinset, mem_map, mem_filter, decide_eq_true_eq]
  apply and_congr_right
  intro other
  obtain ⟨hpre, hrest, hcross⟩ := pairwise_append.mp sorted
  constructor
  · rintro ⟨a, ha, rfl⟩
    have later := hcross a ha c mem_cons_self
    refine ⟨a, ⟨mem.mpr (mem_append_left _ ha), lt_of_le_of_ne later ?_⟩, rfl⟩
    exact fun same => other (by rw [same])
  · rintro ⟨a, ⟨ha, newer⟩, rfl⟩
    refine ⟨a, ?_, rfl⟩
    rcases mem_append.mp (mem.mp ha) with ha | ha
    · exact ha
    · rcases mem_cons.mp ha with rfl | ha
      · exact absurd newer (lt_irrefl _)
      · exact absurd newer (not_lt.mpr ((pairwise_cons.mp hrest).1 a ha))

end TmVault.Relational
