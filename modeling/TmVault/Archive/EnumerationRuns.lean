import TmVault.Archive.EnumerationLaws

namespace TmVault.Archive.Enumeration

open Relational List

variable {cfg : Settings} {s s' : Census} {key : ScopeKey} {r : Scope} {generation : Nat} {p : Page}
  {url : String}

/-- No gap is written to an excluded scope, a location over the cap keeps that gap, and the listings of
a generation agree on which children have children. -/
def Census.allows (s : Census) : Turn → Bool
  | .page key generation p _ => p.value.all fun c => c.childFolderCount = some 0 ||
      (p.value.all fun d => d.id ≠ c.id || d.route ≠ c.route || d.childFolderCount ≠ some 0) &&
      s.memberships.all fun m => m.parent ≠ key || m.generation ≠ generation ||
        c.route ≠ some m.target.base || c.id ≠ some m.target.folderId || m.children.isSome
  | .fail key generation gap _ => (s.scope? key).all fun r => r.generation ≠ generation ||
      r.state ≠ .excluded && (key.phase ≠ .root || r.gap ≠ some .locationCap || gap = .locationCap)
  | .restart key generation => (s.scope? key).all fun r => r.generation ≠ generation ||
      (key.phase ≠ .root || r.gap ≠ some .locationCap) && (r.state ≠ .excluded || r.restartCount = 0)
  | .recount key generation result => (s.scope? key).all fun r => r.generation ≠ generation ||
      result.gap.isNone || key.phase ≠ .root && r.state ≠ .excluded
  | _ => true

def Orderly (s : Census) : Event → Prop
  | .takeover => True
  | .turn token t => token = s.token → s.allows t = true

theorem steady_of_allows (h : s.allows (.page key generation p url) = true) :
    Steady s key generation p := by
  intro c hc some id route hid hroute
  have := all_eq_true.mp h c hc
  simp only [Bool.or_eq_true, decide_eq_true_eq, Bool.and_eq_true, some, false_or,
    all_eq_true] at this
  obtain ⟨inPage, before⟩ := this
  refine ⟨fun d hd hid' hroute' => ?_, fun m hm hkey none => ?_⟩
  · have := inPage d hd
    simpa [hid, hroute, hid', hroute'] using this
  · have := before m hm
    simp only [Membership.key, Prod.mk.injEq] at hkey
    obtain ⟨hparent, hgeneration, htarget⟩ := hkey
    simp [hparent, hgeneration, htarget, hid, hroute, none] at this

theorem allows_found (h : (s.scope? key).all check = true)
    (hr : s.scope? key = some r) : check r = true := by
  rw [hr] at h
  exact h

section

variable {P : Census → Prop}

theorem attempt {x : Except Refusal Census} (before : P s) (h : ∀ s', x = .ok s' → P s') :
    P (x.toOption.getD s) := by
  cases x with
  | error e => exact before
  | ok s' => exact h s' rfl

theorem attempt_fst {x : Except Refusal (Census × Bool)} (before : P s)
    (h : ∀ s' b, x = .ok (s', b) → P s') : P ((x.toOption.map Prod.fst).getD s) := by
  cases x with
  | error e => exact before
  | ok done => exact h done.1 done.2 rfl

end

theorem take_kept (kept : Kept s) (allowed : s.allows t = true) : Kept (s.take cfg t) := by
  cases t with
  | addLocation base => exact kept.addLocation base
  | recover => exact kept.recover
  | claim key => exact kept.claimScope key
  | page key generation p url =>
    exact attempt_fst kept fun s' b h => kept.page (steady_of_allows allowed) h
  | fail key generation gap notBefore =>
    refine attempt kept fun s' h => kept.failScope (fun r hr current => ?_) h
    have checked := allows_found allowed hr
    simp only [current, ne_eq, not_true_eq_false, decide_false, Bool.false_or, Bool.and_eq_true,
      decide_eq_true_eq, Bool.or_eq_true] at checked
    exact ⟨checked.1, fun root capped => by simpa [root, capped] using checked.2⟩
  | restart key generation =>
    refine attempt_fst kept fun s' b h => kept.restart (fun r hr current => ?_) h
    have checked := allows_found allowed hr
    simp only [current, ne_eq, not_true_eq_false, decide_false, Bool.false_or, Bool.and_eq_true,
      decide_eq_true_eq, Bool.or_eq_true] at checked
    exact ⟨fun root => by simpa [root] using checked.1, fun gone => by simpa [gone] using checked.2⟩
  | recount key generation result =>
    refine attempt kept fun s' h => kept.recount (fun r hr current gap => ?_) h
    have checked := allows_found allowed hr
    have some : result.gap.isNone = false := by rw [← Option.not_isSome, gap]; rfl
    simpa only [current, ne_eq, not_true_eq_false, decide_false, Bool.false_or, some,
      Bool.and_eq_true, decide_eq_true_eq] using checked
  | explainHidden key generation => exact attempt kept fun s' h => kept.explainHidden h
  | repair now chosen => exact kept.repair now chosen
  | item key state => exact kept.setItem key state

theorem step_kept (s : Census) (e : Event) (kept : Kept s) (orderly : Orderly s e) :
    Kept (s.step cfg e) := by
  cases e with
  | takeover => exact kept.of_scopes (.of_eq rfl) rfl rfl rfl
  | turn token t =>
    unfold Census.step
    dsimp only
    split
    · rename_i owner
      exact take_kept kept (orderly owner)
    · exact kept

def Keeps (s s' : Census) : Prop :=
  ∀ key generation url receipt, s.receipt? key generation url = some receipt →
    ∃ receipt', s'.receipt? key generation url = some receipt' ∧ receipt'.page = receipt.page

theorem Keeps.of_append (h : s'.receipts = s.receipts ++ receipts) : Keeps s s' := by
  intro key generation url receipt found
  refine ⟨receipt, ?_, rfl⟩
  rw [Census.receipt?, h, find?_append]
  exact congrArg (Option.or · _) found

theorem Keeps.of_eq (h : s'.receipts = s.receipts) : Keeps s s' := by
  have appended : s'.receipts = s.receipts ++ [] := by rw [h, append_nil]
  exact .of_append appended

theorem restart_keeps (h : restart s key generation = .ok (s', b)) : Keeps s s' := by
  obtain ⟨row, -, h⟩ := of_bind h
  split at h
  · cases h
    exact .of_eq rfl
  · cases h
    intro j n url receipt found
    refine ⟨_, (find?_map ..).trans (congrArg (Option.map _) (.trans ?_ found)), ?_⟩
    · congr 1
      funext r
      dsimp only [Function.comp]
      split <;> rfl
    · dsimp only
      split <;> rfl

theorem listPage_receipts (h : listPage cfg row p s = .ok (s', inserted)) :
    s'.receipts = s.receipts := by
  by_cases phase : row.key.phase = .items
  · exact (listPage_items phase h).1.2.2
  · rw [listPage, if_neg phase] at h
    obtain ⟨acc, hacc, h⟩ := of_bind h
    cases h
    have adds : Adds s acc.1 := foldlM_ok (fun acc _ => Adds s acc.1)
      (fun adds hstep => adds.trans (listFolder_ok hstep).1) (.refl s) hacc
    exact adds.receipts

section

variable (h : page cfg s key generation p url = .ok (s', accepted))

include h

theorem page_receipts :
    (∃ receipt, s.receipt? key generation url = some receipt ∧ receipt.page = p ∧ s' = s) ∨
      accepted = false ∧ s'.receipts = s.receipts ∨ s.receipt? key generation url = none ∧
        s'.receipts = s.receipts ++ [receiptOf key generation url p] := by
  rcases page_ok h with replayed | ⟨row, missing, -, -, -, ⟨-, refused, rfl⟩ | effect⟩
  · exact .inl replayed
  · exact .inr (.inl ⟨refused, (location_adds p.base).receipts⟩)
  · obtain ⟨s₂, inserted, listed, rfl⟩ := effect
    have receipts := (listPage_receipts listed).trans (location_adds p.base).receipts
    exact .inr (.inr ⟨missing, congrArg (· ++ [receiptOf key generation url p]) receipts⟩)

theorem page_keeps : Keeps s s' := by
  rcases page_receipts h with ⟨_, -, -, rfl⟩ | ⟨-, same⟩ | ⟨-, added⟩
  · exact .of_eq rfl
  · exact .of_eq same
  · exact .of_append added

end

theorem take_keeps (s : Census) (t : Turn) : Keeps s (s.take cfg t) := by
  have same : Keeps s s := .of_eq rfl
  -- A write that needs only the scope's generation leaves the receipts alone.
  have written : ∀ {key generation} {f : Scope → Census} {s'},
      (currentScope s key generation >>= fun row => .ok (f row)) = .ok s' →
      (∀ row, (f row).receipts = s.receipts) → Keeps s s' :=
    fun h receipts => by
      obtain ⟨row, -, h⟩ := of_bind h
      cases h
      exact .of_eq (receipts row)
  cases t with
  | addLocation base => exact .of_eq (location_adds base).receipts
  | page key generation p url => exact attempt_fst same fun s' b h => page_keeps h
  | restart key generation => exact attempt_fst same fun s' b h => restart_keeps h
  | fail | recount | explainHidden => exact attempt same fun s' h => written h fun _ => rfl
  | recover | claim | repair | item => exact .of_eq rfl

theorem play_keeps (s : Census) (events : List Event) :
    Keeps s (Concurrency.play (Census.step cfg) s events) := by
  induction events generalizing s with
  | nil => exact .of_eq rfl
  | cons e events ih =>
    have step : Keeps s (s.step cfg e) := by
      cases e with
      | takeover => exact .of_eq rfl
      | turn token t =>
        unfold Census.step
        dsimp only
        split
        · exact take_keeps s t
        · exact .of_eq rfl
    intro key generation url receipt found
    obtain ⟨receipt', found', same⟩ := step key generation url receipt found
    obtain ⟨receipt'', found'', same'⟩ := ih (s.step cfg e) key generation url receipt' found'
    exact ⟨receipt'', found'', same'.trans same⟩

theorem accepted_receipt (h : page cfg s key generation p url = .ok (s', true)) :
    ∃ receipt, s'.receipt? key generation url = some receipt ∧ receipt.page = p := by
  rcases page_receipts h with ⟨receipt, found, same, rfl⟩ | ⟨refused, -⟩ | ⟨missing, added⟩
  · exact ⟨receipt, found, same⟩
  · cases refused
  · refine ⟨receiptOf key generation url p, ?_, rfl⟩
    rw [Census.receipt?] at missing
    rw [Census.receipt?, added, find?_append, missing]
    simp [receiptOf]

theorem page_replayed (found : s.receipt? key generation url = some receipt)
    (h : page cfg s key generation p url = .ok (s', accepted)) : receipt.page = p ∧ s' = s := by
  rcases page_ok h with ⟨receipt', found', same, rfl⟩ | ⟨row, missing, -⟩
  · obtain rfl := Option.mem_unique found found'
    exact ⟨same, rfl⟩
  · cases found.symm.trans missing

section

def Complete (s : Census) (key : ScopeKey) : Prop :=
  ∃ r, s.scope? key = some r ∧ r.state = .complete ∧ r.terminalPage = true

def InForce (s : Census) (receipt : PageReceipt) : Prop :=
  ∃ r, s.scope? receipt.scope = some r ∧ r.generation = receipt.generation ∧ r.state ≠ .excluded

structure Whole (held : Listed → Bool) (s : Census) : Prop where
  items : ∀ receipt ∈ s.receipts, InForce s receipt → receipt.scope.phase = .items →
    ∀ e ∈ receipt.page.value, ∃ id, e.id = some id ∧ ∃ i ∈ s.items,
      i.key = (receipt.scope, receipt.generation, id) ∧ i.state = .stored ∧ held i = true
  scopes : ∀ key r, s.scope? key = some r → r.state ≠ .excluded → Complete s key
  folders : ∀ receipt ∈ s.receipts, InForce s receipt → receipt.scope.phase ≠ .items →
    ∀ c ∈ receipt.page.value, ∃ id route, c.id = some id ∧ c.route = some route ∧
      Complete s ⟨route, id, .items⟩ ∧
      (c.childFolderCount ≠ some 0 → Complete s ⟨route, id, .children⟩)

variable {held : Listed → Bool}

theorem complete_of_none_failed (none : s.scopes.countP Scope.failed = 0) (hr : s.scope? key = some r)
    (shown : r.state ≠ .excluded) : Complete s key := by
  have := countP_eq_zero.mp none r (mem_of_scope? hr)
  simp only [Scope.failed, shown, ne_eq, not_false_eq_true, decide_true, Bool.true_and,
    Bool.or_eq_true, decide_eq_true_eq, Bool.not_eq_true', not_or, not_not,
    Bool.not_eq_false] at this
  exact ⟨r, hr, this.1.1, this.1.2⟩

theorem required_shown (none : missingMembers s = 0) (h : k ∈ requiredKeys s) :
    ∃ r, s.scope? k = some r ∧ r.state ≠ .excluded := by
  have empty := eq_nil_of_length_eq_zero none
  have absent : k ∉ List.dedup _ := empty ▸ not_mem_nil
  rw [mem_dedup, mem_filter, not_and] at absent
  have shown := absent h
  cases hk : s.scope? k with
  | none => simp [hk] at shown
  | some r => exact ⟨r, rfl, by simpa [hk] using shown⟩

theorem stored_of_none_failed (none : itemsFailed held s = 0) (hi : i ∈ s.items)
    (current : s.current i = true) : i.state = .stored ∧ held i = true := by
  have empty := eq_nil_of_length_eq_zero none
  have absent : i.externalId ∉ List.dedup _ := empty ▸ not_mem_nil
  rw [mem_dedup] at absent
  by_contra failed
  refine absent (mem_map_of_mem (mem_filter.mpr ⟨hi, ?_⟩))
  rw [current, Bool.true_and, Bool.not_eq_true', ← Bool.not_eq_true]
  simpa using failed

theorem required_of_member {receipt : PageReceipt} {id route : String} {c : Entry} (kept : Kept s)
    (inForce : InForce s receipt) (h : Member s receipt.scope receipt.generation route id c) :
    (⟨route, id, .items⟩ : ScopeKey) ∈ requiredKeys s ∧
      (c.childFolderCount ≠ some 0 → (⟨route, id, .children⟩ : ScopeKey) ∈ requiredKeys s) := by
  obtain ⟨m, hm, hkey, children⟩ := h
  obtain ⟨r, hr, current, shown⟩ := inForce
  simp only [Membership.key, Prod.mk.injEq] at hkey
  obtain ⟨hparent, hgeneration, htarget⟩ := hkey
  have standing : m.excluded = false := by
    by_contra excluded
    rcases kept.lost m hm (by simpa using excluded) r (hparent ▸ hr) with gone | newer
    · exact shown gone
    · omega
  have counted : m ∈ s.memberships.filter fun m => !m.excluded && (s.scope? m.parent).any fun p =>
      p.generation = m.generation && p.state ≠ .excluded := by
    refine mem_filter.mpr ⟨hm, ?_⟩
    rw [standing, hparent, hr]
    simp [current, hgeneration, shown]
  constructor
  · exact mem_flatMap.mpr ⟨m, counted, htarget ▸ mem_cons_self⟩
  · intro some
    refine mem_flatMap.mpr ⟨m, counted, mem_cons_of_mem _ ?_⟩
    rw [children some]
    exact mem_singleton_self _

theorem Kept.whole (kept : Kept s) (none : filesFailed held s = 0) : Whole held s := by
  obtain ⟨⟨noScope, noMember⟩, noItem⟩ : (s.scopes.countP Scope.failed = 0 ∧ missingMembers s = 0) ∧
      itemsFailed held s = 0 := by
    simp only [filesFailed, foldersFailed] at none
    omega
  have complete : ∀ key r, s.scope? key = some r → r.state ≠ .excluded → Complete s key :=
    fun key r hr shown => complete_of_none_failed noScope hr shown
  refine ⟨fun receipt h inForce phase e he => ?_, complete, fun receipt h inForce phase c hc => ?_⟩
  · obtain ⟨id, hid, i, hi, hkey⟩ := (kept.recorded receipt h).items phase e he
    refine ⟨id, hid, i, hi, hkey, stored_of_none_failed noItem hi ?_⟩
    obtain ⟨r, hr, current, shown⟩ := inForce
    simp only [Listed.key, Prod.mk.injEq] at hkey
    simp [Census.current, hkey.1, hkey.2.1, hr, current, shown]
  · obtain ⟨id, route, hid, hroute, capped | member⟩ := (kept.recorded receipt h).folders phase c hc
    · obtain ⟨r, hr, gap⟩ := capped
      have open' := kept.sound _ r hr (by rw [key_of_scope? hr]; rfl) gap
      obtain ⟨r', hr', done, -⟩ := complete _ r hr (by simp [open'])
      obtain rfl := Option.mem_unique hr hr'
      simp [open'] at done
    · obtain ⟨target, children⟩ := required_of_member kept inForce member
      have covered : ∀ {k}, k ∈ requiredKeys s → Complete s k := fun hk => by
        obtain ⟨r, hr, shown⟩ := required_shown noMember hk
        exact complete _ r hr shown
      exact ⟨id, route, hid, hroute, covered target, fun some => covered (children some)⟩

end

/-- A page that was accepted once is accepted again as it was and never otherwise; when no gap lands on
an excluded scope, a summary without failures covers the listings in force. -/
theorem summary_covers_listings (cfg : Settings) (held : Listed → Bool) :
    (∀ before after key generation p url s',
      page cfg (Concurrency.play (Census.step cfg) {} before) key generation p url = .ok (s', true) →
      let s := Concurrency.play (Census.step cfg) s' after
      (∀ t b, page cfg s key generation p url = .ok (t, b) → t = s) ∧
        ∀ p', p' ≠ p → ∃ e, page cfg s key generation p' url = .error e) ∧
    ∀ events, Concurrency.Along (Census.step cfg) Orderly {} events →
      filesFailed held (Concurrency.play (Census.step cfg) {} events) = 0 →
      Whole held (Concurrency.play (Census.step cfg) {} events) := by
  constructor
  · intro before after key generation p url s' accepted s
    obtain ⟨receipt, found, same⟩ := accepted_receipt accepted
    obtain ⟨receipt', found', same'⟩ := play_keeps s' after key generation url receipt found
    refine ⟨fun t b h => (page_replayed found' h).2, fun p' other => ?_⟩
    cases h : page cfg s key generation p' url with
    | error e => exact ⟨e, rfl⟩
    | ok done =>
      have content : receipt'.page = p' := (page_replayed found' h).1
      exact absurd (content.symm.trans (same'.trans same)) other
  · intro events orderly none
    exact (orderly.invariant (fun s e => step_kept s e) Kept.empty).whole none

def anySettings : Settings := ⟨8, fun _ _ _ => true⟩

def folderEntry (id : String) (children : Int) : Entry :=
  { id := some id, route := some "b", childFolderCount := some children }

def walkedTree : List Turn :=
  [.addLocation "b", .claim (rootKey "b"), .page (rootKey "b") 1 ⟨"b", [folderEntry "P" 1], none⟩ "b",
   .claim ⟨"b", "P", .items⟩, .page ⟨"b", "P", .items⟩ 1 ⟨"b", [], none⟩ "b/P/items",
   .claim ⟨"b", "P", .children⟩,
   .page ⟨"b", "P", .children⟩ 1 ⟨"b", [folderEntry "C" 1], some "p2"⟩ "b/P/childFolders",
   .claim ⟨"b", "C", .children⟩,
   .page ⟨"b", "C", .children⟩ 1 ⟨"b", [folderEntry "D" 0], some "c2"⟩ "b/C/childFolders"]

def relisted : List Turn :=
  [.claim ⟨"b", "P", .children⟩,
   .page ⟨"b", "P", .children⟩ 2 ⟨"b", [folderEntry "C" 1], none⟩ "b/P/childFolders",
   .claim ⟨"b", "C", .items⟩, .page ⟨"b", "C", .items⟩ 2 ⟨"b", [], none⟩ "b/C/items"]

def lateFailure : List Event :=
  List.map (Event.turn 0) (walkedTree ++ [.restart ⟨"b", "P", .children⟩ 1,
    .fail ⟨"b", "C", .children⟩ 1 (.other "enumeration_failed") none] ++ relisted ++
    [.repair 0 [⟨"b", "C", .children⟩], .claim ⟨"b", "C", .children⟩,
     .page ⟨"b", "C", .children⟩ 1 ⟨"b", [], none⟩ "c2"])

def earlyFailure : List Event :=
  List.map (Event.turn 0) (walkedTree ++ [.fail ⟨"b", "C", .children⟩ 1 (.other "enumeration_failed") none,
    .restart ⟨"b", "P", .children⟩ 1] ++ relisted ++
    [.claim ⟨"b", "C", .children⟩,
     .page ⟨"b", "C", .children⟩ 2 ⟨"b", [folderEntry "D" 0], none⟩ "b/C/childFolders",
     .claim ⟨"b", "D", .items⟩,
     .page ⟨"b", "D", .items⟩ 2 ⟨"b", [{ id := some "m" }], none⟩ "b/D/items",
     .item (⟨"b", "D", .items⟩, 2, "m") .stored])

/-- Nothing failed, and the folder `D` that a page of `C` in force lists is not covered. -/
theorem lateFailure_uncovered :
    filesFailed (fun _ => true) (Concurrency.play (Census.step anySettings) {} lateFailure) = 0 ∧
      ¬ Whole (fun _ => true) (Concurrency.play (Census.step anySettings) {} lateFailure) := by
  refine ⟨by decide +kernel, fun whole => ?_⟩
  have excluded : ((Concurrency.play (Census.step anySettings) {} lateFailure).scope?
      ⟨"b", "D", .items⟩).map Scope.state = some .excluded := by decide +kernel
  have inForce : ((Concurrency.play (Census.step anySettings) {} lateFailure).scope?
      ⟨"b", "C", .children⟩).map (fun r => (r.generation, r.state)) = some (1, .complete) := by
    decide +kernel
  obtain ⟨r, hr, current⟩ := Option.map_eq_some_iff.mp inForce
  obtain ⟨generation, state⟩ := Prod.mk.inj current
  obtain ⟨id, route, hid, hroute, ⟨d, hd, complete, -⟩, -⟩ := whole.folders
    { scope := ⟨"b", "C", .children⟩, generation := 1, url := "b/C/childFolders",
      page := ⟨"b", [folderEntry "D" 0], some "c2"⟩, excluded := true } (by decide +kernel)
    ⟨r, hr, generation, by simp [state]⟩ (by decide) (folderEntry "D" 0) mem_cons_self
  cases hid
  cases hroute
  rw [hd, Option.map_some, complete] at excluded
  cases excluded

/-- The same walk with the failure before the restart: everything that is listed is covered. -/
theorem earlyFailure_covered :
    Whole (fun _ => true) (Concurrency.play (Census.step anySettings) {} earlyFailure) := by
  refine (summary_covers_listings anySettings fun _ => true).2 earlyFailure ?_ (by decide +kernel)
  simp only [earlyFailure, walkedTree, relisted, cons_append, nil_append, map_cons,
    map_nil, Concurrency.Along, Orderly]
  decide +kernel

end TmVault.Archive.Enumeration
