import TmVault.Relational.Table

/-! Reading ordered rows in pages of `n`, where the next page is asked for by the key of the last row:
rows that share it with that row are on no page. -/

namespace TmVault.Relational

open List

universe u v

variable {Row : Type u} {Key : Type v} [LinearOrder Key] (key : Row → Key) (n : Nat)

def pageOf (rows : List Row) (after : Key) : List Row := (rows.filter (after < key ·)).take n

/-- Cut into blocks of `n`, the rows of one key are in one block. -/
def Unsplit (rows : List Row) : Prop :=
  (chunks n rows).Pairwise fun page page' => ∀ a ∈ page, ∀ b ∈ page', key a ≠ key b

instance (rows : List Row) : Decidable (Unsplit key n rows) :=
  inferInstanceAs (Decidable (List.Pairwise _ _))

variable {key n} {rows q : List Row} {after : Key} {r last : Row} {fuel : Nat}

omit [LinearOrder Key] in
theorem unsplit_iff (pos : 0 < n) (ne : q ≠ []) : Unsplit key n q ↔
    (∀ a ∈ q.take n, ∀ b ∈ q.drop n, key a ≠ key b) ∧ Unsplit key n (q.drop n) := by
  rw [Unsplit, chunks_of_ne_nil pos ne, pairwise_cons]
  refine and_congr_left fun _ => ?_
  conv_rhs => rw [← chunks_flatten pos (q.drop n)]
  simp only [mem_flatten]
  exact ⟨fun h a ha b ⟨page, hp, hb⟩ => h page hp a ha b hb,
    fun h page hp a ha b hb => h a ha b ⟨page, hp, hb⟩⟩

theorem later_of_walk (h : r ∈ walkPages (pageOf key n rows) key fuel after) : after < key r := by
  induction fuel generalizing after with
  | zero => cases h
  | succ fuel ih =>
    have later {x : Row} (hx : x ∈ pageOf key n rows after) : after < key x :=
      of_decide_eq_true (mem_filter.mp (mem_of_mem_take hx)).2
    cases hlast : (pageOf key n rows after).getLast? with
    | none => simp [walkPages, hlast] at h
    | some last =>
      rw [walkPages_succ hlast] at h
      exact (mem_append.mp h).elim later fun h => (later (mem_of_getLast? hlast)).trans (ih h)

theorem le_getLast (sorted : q.Pairwise (key · ≤ key ·)) (hlast : q.getLast? = some last)
    (hr : r ∈ q) : key r ≤ key last := by
  obtain ⟨front, rfl⟩ := getLast?_eq_some_iff.mp hlast
  rcases mem_append.mp hr with hr | hr
  · exact (pairwise_append.mp sorted).2.2 r hr last (mem_singleton_self last)
  · rw [mem_singleton.mp hr]

/-- The walk reads every row exactly when no page splits a key. -/
theorem walk_iff (pos : 0 < n) (sorted : rows.Pairwise (key · ≤ key ·)) (nodup : rows.Nodup)
    (here : rows.filter (after < key ·) = q) (enough : q.length ≤ fuel) :
    (∀ r ∈ q, r ∈ walkPages (pageOf key n rows) key fuel after) ↔ Unsplit key n q := by
  induction fuel generalizing after q with
  | zero =>
    rw [length_eq_zero_iff.mp (Nat.le_zero.mp enough)]
    exact iff_of_true (fun r hr => by cases hr) .nil
  | succ fuel ih =>
    by_cases ne : q = []
    · rw [ne]
      exact iff_of_true (fun r hr => by cases hr) .nil
    have page : pageOf key n rows after = q.take n := by rw [pageOf, here]
    have parts := pairwise_append.mp
      ((take_append_drop n q).symm ▸ here ▸ sorted.filter (after < key ·))
    have mem : ∀ r, r ∈ q ↔ r ∈ q.take n ∨ r ∈ q.drop n := by
      intro r
      rw [← mem_append, take_append_drop]
    obtain ⟨last, hlast⟩ : ∃ last, (q.take n).getLast? = some last :=
      ⟨_, getLast?_eq_some_getLast (by simp [ne, pos.ne'])⟩
    have le_last {r : Row} (hr : r ∈ q.take n) : key r ≤ key last := le_getLast parts.1 hlast hr
    have walk : ∀ r, r ∈ walkPages (pageOf key n rows) key (fuel + 1) after ↔
        r ∈ q.take n ∨ r ∈ walkPages (pageOf key n rows) key fuel (key last) := by
      intro r
      rw [walkPages_succ (page ▸ hlast), page, mem_append]
    rw [unsplit_iff pos ne]
    by_cases apart : ∀ a ∈ q.take n, ∀ b ∈ q.drop n, key a ≠ key b
    · have late : ∀ b ∈ q.drop n, key last < key b := fun b hb =>
        (parts.2.2 last (mem_of_getLast? hlast) b hb).lt_of_ne (apart last (mem_of_getLast? hlast) b hb)
      have next : rows.filter (key last < key ·) = q.drop n := by
        have seen : after < key last := by
          have := mem_of_mem_take (mem_of_getLast? hlast)
          rw [← here] at this
          exact of_decide_eq_true (mem_filter.mp this).2
        have again : rows.filter (key last < key ·) = q.filter (key last < key ·) := by
          rw [← here, filter_filter]
          refine filter_congr fun r _ => ?_
          have : key last < key r → after < key r := seen.trans
          grind
        rw [again]
        conv_lhs => rw [← take_append_drop n q]
        rw [filter_append, filter_eq_nil_iff.mpr, filter_eq_self.mpr, nil_append]
        · exact fun r hr => decide_eq_true (late r hr)
        · exact fun r hr => by simpa using le_last hr
      have short : (q.drop n).length ≤ fuel := by
        rw [length_drop]
        omega
      rw [and_iff_right apart, ← ih next short]
      simp only [mem, walk]
      constructor
      · intro all r hr
        exact (all r (.inr hr)).resolve_left fun hp => (le_last hp).not_gt (late r hr)
      · exact fun all r hr => hr.imp_right (all r)
    · -- a row with the last key is left over: it is on no later page
      obtain ⟨a, ha, b, hb, same⟩ : ∃ a ∈ q.take n, ∃ b ∈ q.drop n, key a = key b := by
        simpa only [not_forall, ne_eq, not_not, exists_prop] using apart
      refine iff_of_false (fun all => ?_) fun h => apart h.1
      rcases (walk b).mp (all b ((mem b).mpr (.inr hb))) with hp | later
      · have distinct : q.Nodup := here ▸ nodup.filter _
        rw [← take_append_drop n q] at distinct
        exact disjoint_of_nodup_append distinct hp hb
      · exact (same ▸ le_last ha).not_gt (later_of_walk later)

end TmVault.Relational
