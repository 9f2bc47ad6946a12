import ExchangeDesk.Proofs.Calm
import ExchangeDesk.Proofs.Meaning
import ExchangeDesk.Proofs.Steps

/-!
# The numbers of exchanges

Numbers are given one after the other, and none is given back: not by a unit of
work that fails and not by a record that is deleted. So a unit never meets a
number that the book holds (`Session.Orderly`), and a number that is gone from the
book is gone for ever (`Book.Spent`). `run_numbers` puts both together.
-/

namespace ExchangeDesk

open ExchangeDesk.Action

variable {env : Environment} {s s' : Session} {b b' : Book} {id : ExchangeId}

theorem Book.findExchange_eq_none :
    b.findExchange id = none ↔ id ∉ b.exchanges.map (·.id) := by
  simp [findExchange]

-- ---------------------------------------------------------------------------
-- At every step
-- ---------------------------------------------------------------------------

/-- Exchanges were numbered from `first` on, and those that wait have numbers that the
book does not hold. -/
structure Session.Orderly (first : Nat) (s : Session) : Prop where
  reachable : Reachable s.book
  numbers : s.drafts.exchanges.map (·.id.number) =
    List.range' first s.drafts.exchanges.length
  next : s.book.nextExchange = first + s.drafts.exchanges.length
  distinct : (s.staged.exchanges.map (·.id)).Nodup
  drawn : ∀ e ∈ s.staged.exchanges, e.id.number < s.book.nextExchange
  absent : ∀ e ∈ s.staged.exchanges, s.book.findExchange e.id = none

namespace Session.Orderly

variable {first : Nat}

theorem start (hb : Reachable b) : Orderly b.nextExchange { book := b } :=
  ⟨hb, rfl, rfl, List.nodup_nil, by simp, by simp⟩

theorem numbered (h : s.Orderly first) (exchange : NewExchange) : Orderly first { s with
    book := (s.book.numberExchange exchange).2
    staged.exchanges := s.staged.exchanges ++ [(s.book.numberExchange exchange).1]
    drafts.exchanges := s.drafts.exchanges ++ [(s.book.numberExchange exchange).1] } := by
  have hnew : (⟨s.book.nextExchange⟩ : ExchangeId) ∉ s.book.exchanges.map (·.id) := by
    intro hmem
    exact Nat.lt_irrefl _ (h.reachable.drawn.below _ hmem)
  have hnew' : (⟨s.book.nextExchange⟩ : ExchangeId) ∉ s.staged.exchanges.map (·.id) := by
    intro hmem
    obtain ⟨e, he, hid⟩ := List.mem_map.mp hmem
    have hlt := h.drawn e he
    simp [hid] at hlt
  refine ⟨h.reachable.draw, ?_, ?_, ?_, ?_, ?_⟩
  · simp [Book.numberExchange, h.numbers, h.next, List.range'_concat]
  · simp [Book.numberExchange, h.next, Nat.add_assoc]
  · rw [nodup_map_concat]
    exact ⟨h.distinct, hnew'⟩
  · rw [List.forall_mem_append, List.forall_mem_singleton]
    exact ⟨fun e he => Nat.lt_succ_of_lt (h.drawn e he), Nat.lt_succ_self _⟩
  · rw [List.forall_mem_append, List.forall_mem_singleton]
    exact ⟨h.absent, Book.findExchange_eq_none.mpr hnew⟩

theorem step (h : s.Orderly first) (hstep : s.Step s') : s'.Orderly first := by
  cases hstep with
  | called call => exact { h with }
  | logged line => exact { h with }
  | timed => exact { h with }
  | begun => exact { h with distinct := List.nodup_nil, drawn := by simp, absent := by simp }
  | numbered exchange => exact h.numbered exchange
  | moved m => exact { h with }
  | recorded transaction => exact { h with }
  | posted entry => exact { h with }
  | committed hcommit =>
    have hreachable := h.reachable.commit h.drawn h.distinct hcommit
    obtain ⟨-, rfl⟩ := Book.commit_ok.mp hcommit
    exact { h with reachable := hreachable, distinct := List.nodup_nil, drawn := by simp
                   absent := by simp }
  | rateInserted rate => exact { h with reachable := h.reachable.insertRate rate }
  | rateReplaced hreplace =>
    have hreachable := h.reachable.replaceRate hreplace
    obtain rfl := Book.replaceRate_ok hreplace
    exact { h with reachable := hreachable }
  | @exchangeReplaced exchange _ hreplace =>
    have hreachable := h.reachable.replaceExchange hreplace
    obtain rfl := Book.replaceExchange_ok hreplace
    refine { h with reachable := hreachable, absent := fun e he => ?_ }
    rw [Book.findExchange_eq_none, Book.putExchange_ids, ← Book.findExchange_eq_none]
    exact h.absent e he
  | exchangeDeleted id =>
    refine { h with reachable := h.reachable.deleteExchange id, absent := fun e he => ?_ }
    have habsent := Book.findExchange_eq_none.mp (h.absent e he)
    rw [Book.findExchange_eq_none]
    exact fun hmem => habsent ((List.filter_sublist.map _).subset hmem)

theorem leads (h : s.Orderly first) (hleads : s.Leads s') : s'.Orderly first :=
  hleads.invariant (fun _ _ h hstep => h.step hstep) h

theorem commit_ok (h : s.Orderly first) : ∃ b, s.book.commit s.staged = .ok b :=
  ⟨_, Book.commit_ok.mpr ⟨h.absent, rfl⟩⟩

end Session.Orderly

-- ---------------------------------------------------------------------------
-- Numbers that are gone
-- ---------------------------------------------------------------------------

/-- The number was given, and the book holds no exchange with it. -/
def Book.Spent (b : Book) (id : ExchangeId) : Prop :=
  id.number < b.nextExchange ∧ b.findExchange id = none

namespace Book.Spent

theorem of_ids (h : b.Spent id) (hnext : b.nextExchange ≤ b'.nextExchange)
    (hids : ∀ id ∈ b'.exchanges.map (·.id), id ∈ b.exchanges.map (·.id)) : b'.Spent id := by
  obtain ⟨hlt, habsent⟩ := h
  rw [findExchange_eq_none] at habsent
  exact ⟨Nat.lt_of_lt_of_le hlt hnext, findExchange_eq_none.mpr fun hmem => habsent (hids _ hmem)⟩

theorem effect (h : s.book.Spent id) (heffect : Effect env s s') : s'.book.Spent id := by
  cases heffect with
  | spared hspares =>
    obtain ⟨n, hn, hbook⟩ := hspares.book
    rw [hbook]
    exact h.of_ids hn fun _ hid => hid
  | @exchanged _ _ _ _ _ _ legs _ _ hcommitted hdrawn =>
    obtain ⟨n, hn, hbook⟩ := hdrawn
    rw [hcommitted.book] at hn hbook
    have hlt : id.number < s.book.nextExchange + legs.length := Nat.lt_add_right _ h.1
    rw [hbook]
    refine ⟨Nat.lt_of_lt_of_le hlt hn, findExchange_eq_none.mpr ?_⟩
    rw [withLegs, List.map_append, List.mem_append]
    rintro (hold | hnew)
    · exact findExchange_eq_none.mp h.2 hold
    · obtain ⟨_, he, rfl⟩ := List.mem_map.mp hnew
      obtain ⟨leg, hleg, rfl⟩ := List.mem_map.mp he
      exact absurd h.1 (Nat.not_lt.mpr (hcommitted.written.number_mem hleg).1)
  | corrected _ hbook =>
    rw [hbook]
    exact h.of_ids (Nat.le_refl _) fun _ hid => s.book.putExchange_ids _ ▸ hid
  | deleted hbook =>
    rw [hbook]
    exact h.of_ids (Nat.le_refl _) fun _ hid => (List.filter_sublist.map _).subset hid
  | created _ _ hbook =>
    rw [hbook]
    exact h.of_ids (Nat.le_refl _) fun _ hid => hid
  | revised _ hbook =>
    rw [hbook]
    exact h.of_ids (Nat.le_refl _) fun _ hid => hid

theorem run (h : s.book.Spent id) (tasks : List (Environment × Operation)) :
    (run tasks s).book.Spent id :=
  run_invariant (I := fun s => s.book.Spent id) (fun _ _ _ h heffect => h.effect heffect) tasks h

end Book.Spent

-- ---------------------------------------------------------------------------
-- What is answered about them
-- ---------------------------------------------------------------------------

/-- Unless the store fails the call, the answer is that there is no such exchange. -/
structure Session.Unknown (s : Session) (id : ExchangeId) : Prop where
  retrieve (env : Environment) :
    env.faults .findExchange (s.calls.count .findExchange) = none →
      (Desk.retrieveExchange id env s).1 = .error (.exchangeNotFound id)
  update (env : Environment) (changes : ExchangeChanges) :
    env.faults .findExchange (s.calls.count .findExchange) = none →
      (Desk.updateExchange id changes env s).1 = .error (.exchangeNotFound id)
  delete (env : Environment) :
    env.faults .deleteExchange (s.calls.count .deleteExchange) = none →
      (Desk.deleteExchange id env s).1 = .error (.exchangeNotFound id)

namespace Desk

variable (hfault : env.faults .findExchange (s.calls.count .findExchange) = none)
  (habsent : s.book.findExchange id = none)

include hfault habsent

theorem retrieveExchange_absent : Triple (retrieveExchange id) env s (fun _ _ => False)
    fun e _ => e = .exchangeNotFound id := by
  have hsure : Sure (Store.findExchange id) env s :=
    Store.reach_then_answered hfault fun _ _ => trivial
  refine Triple.mono ((Store.findExchange_reads id).demand hsure) ?_ fun _ _ h => h.2
  rintro e s' ⟨hfound, -⟩
  simp [habsent] at hfound

theorem updateExchange_absent (changes : ExchangeChanges) :
    Triple (updateExchange id changes) env s (fun _ _ => False)
      fun e _ => e = .exchangeNotFound id :=
  Triple.bind (retrieveExchange_absent hfault habsent) fun _ _ h => h.elim

omit hfault

theorem deleteExchange_absent
    (hfault : env.faults .deleteExchange (s.calls.count .deleteExchange) = none) :
    Triple (deleteExchange id) env s (fun _ _ => False) fun e _ => e = .exchangeNotFound id := by
  have hsure : Sure (Store.deleteExchange id) env s :=
    Store.reach_then_answered hfault fun _ _ => trivial
  refine Triple.seq (hsure.concealing (Store.deleteExchange_writes id)) (fun _ _ h => h.elim) ?_
  rintro _ s' ⟨_, ⟨rfl, rfl⟩, -⟩
  rw [habsent]
  exact Triple.fail rfl

end Desk

-- ---------------------------------------------------------------------------
-- How numbers come to be spent
-- ---------------------------------------------------------------------------

/-- Of the numbers drawn in between, the first ones are those of exchanges in the book
and the others are spent. -/
structure Book.Keeps (b b' : Book) (kept : Nat) : Prop where
  stands (id : ExchangeId) : b.nextExchange ≤ id.number → id.number < b.nextExchange + kept →
    (b'.findExchange id).isSome
  spent (id : ExchangeId) : b.nextExchange + kept ≤ id.number → id.number < b'.nextExchange →
    b'.Spent id

theorem Reachable.absent_above (hb : Reachable b) (h : b.nextExchange ≤ id.number) :
    b.findExchange id = none :=
  Book.findExchange_eq_none.mpr fun hmem => absurd (hb.drawn.below id hmem) (Nat.not_lt.mpr h)

/-- Legs keep the numbers that they were committed with. -/
theorem Committed.keeps {request : ExchangeRequest} {plans : List PlannedLeg}
    {legs : List ExecutedLeg} {t : Session} (hb : Reachable s.book)
    (h : Committed request plans legs s t) (hdrawn : t.book.Draws b') :
    s.book.Keeps b' legs.length := by
  obtain ⟨n, hn, rfl⟩ := hdrawn
  constructor
  · intro id hle hlt
    have hmem : id.number ∈ legs.map (·.exchange.id.number) := by
      rw [h.written.numbers, List.mem_range'_1]
      exact ⟨hle, hlt⟩
    obtain ⟨leg, hleg, hnumber⟩ := List.mem_map.mp hmem
    cases id
    cases hnumber
    exact Option.isSome_of_mem (h.stored leg hleg)
  · intro id hle hlt
    refine ⟨hlt, Book.findExchange_eq_none.mpr ?_⟩
    rw [h.book, Book.withLegs, List.map_append, List.mem_append]
    rintro (hold | hnew)
    · exact Book.findExchange_eq_none.mp
        (hb.absent_above (Nat.le_trans (Nat.le_add_right _ _) hle)) hold
    · obtain ⟨_, he, rfl⟩ := List.mem_map.mp hnew
      obtain ⟨leg, hleg, rfl⟩ := List.mem_map.mp he
      exact absurd (h.written.number_mem hleg).2 (Nat.not_lt.mpr hle)

namespace Desk

/-- The numbers of a unit that was not committed are spent. -/
theorem execute_keeps (hb : Reachable s.book) (request : ExchangeRequest) :
    Triple (execute request) env s (fun legs s' => s.book.Keeps s'.book legs.length)
      (fun _ s' => ∃ kept, (env.atomicity = .allLegs → kept = 0) ∧
        s.book.Keeps s'.book kept) := by
  refine Triple.mono (execute_spec request) ?_ ?_
  · rintro legs s' ⟨source, target, way, plans, -, hcommitted⟩
    exact hcommitted.keeps hb (.refl _)
  · rintro e s' (hspares | ⟨hmode, source, target, way, plans, -, -, hcommitted, hspares, rfl⟩)
    · exact ⟨0, fun _ => rfl, (Committed.nil request s).keeps hb hspares.book⟩
    · refine ⟨_, fun hall => ?_, hcommitted.keeps hb ?_⟩
      · rw [hmode] at hall
        cases hall
      · rw [Session.alarm_book]
        exact hspares.book

theorem deleteExchange_spent (hb : Reachable s.book) (id : ExchangeId) :
    Triple (deleteExchange id) env s (fun _ s' => s'.book.Spent id) fun _ _ => True := by
  refine Triple.mono (deleteExchange_spec id) ?_ fun _ _ _ => trivial
  rintro _ s' ⟨hfound, hagrees⟩
  have hmem : id ∈ s.book.exchanges.map (·.id) := by
    by_contra habsent
    simp [Book.findExchange_eq_none.mpr habsent] at hfound
  rw [hagrees.book]
  refine ⟨hb.drawn.below id hmem, ?_⟩
  simp [Book.deleteExchange, Book.findExchange_eq_none]

end Desk

theorem Book.Spent.unknown (h : s.book.Spent id) : s.Unknown id where
  retrieve _ hfault := (Desk.retrieveExchange_absent hfault h.2).answer_error
  update _ changes hfault := (Desk.updateExchange_absent hfault h.2 changes).answer_error
  delete _ hfault := (Desk.deleteExchange_absent h.2 hfault).answer_error

-- ---------------------------------------------------------------------------
-- Runs
-- ---------------------------------------------------------------------------

/-- Exchanges bear the numbers in the order of drafting, none twice, so a commit fails only where
the store fails the call. Numbers of deleted exchanges and of units that failed are `Spent`; they
stay so, and every later call answers that there is no such exchange (`Unknown`). -/
theorem run_numbers (hb : Reachable b) {tasks : List (Environment × Operation)} {t : Session}
    (ht : t = run tasks { book := b }) :
    (∀ exchange env s, Triple (Store.insertExchange exchange) env s
      (fun stored s' =>
        s'.drafts = { s.drafts with exchanges := s.drafts.exchanges ++ [stored] })
      fun _ s' => s'.drafts = s.drafts) ∧
    ((∀ e ∈ b.exchanges, e.id.number < b.nextExchange) ∧
      t.drafts.exchanges.map (·.id.number) =
        List.range' b.nextExchange t.drafts.exchanges.length) ∧
    (Session.Leads { book := b } t ∧
      ∀ u, Session.Leads { book := b } u → ∀ env, Triple Store.commit env u (fun _ _ => True)
        fun _ _ => env.faults .commit (u.calls.count .commit) ≠ none) ∧
    (∀ env id, Triple (Desk.deleteExchange id) env t (fun _ t' => t'.book.Spent id)
      fun _ _ => True) ∧
    (∀ env request, Triple (Desk.execute request) env t
      (fun legs t' => t.book.Keeps t'.book legs.length)
      fun _ t' => ∃ kept, (env.atomicity = .allLegs → kept = 0) ∧ t.book.Keeps t'.book kept) ∧
    ∀ (u : Session) id, u.book.Spent id → ∀ later,
      (run later u).book.Spent id ∧ (run later u).Unknown id := by
  have hleads : Session.Leads { book := b } t := ht ▸ run_leads tasks _
  have horderly (u : Session) (hu : Session.Leads { book := b } u) :=
    (Session.Orderly.start hb).leads hu
  have hreachable := (horderly t hleads).reachable
  refine ⟨Store.insertExchange_drafts,
    ⟨fun e he => hb.drawn.below _ (List.mem_map_of_mem he), (horderly t hleads).numbers⟩,
    ⟨hleads, ?_⟩, ?_, ?_, ?_⟩
  · intro u hu env
    obtain ⟨b', hcommit⟩ := (horderly u hu).commit_ok
    exact Store.commit_faults hcommit
  · intro env id
    exact Desk.deleteExchange_spent hreachable id
  · intro env request
    exact Desk.execute_keeps hreachable request
  · intro u id hspent later
    exact ⟨hspent.run later, (hspent.run later).unknown⟩

/-- An exchange that is not committed, another one, and the first of its two legs deleted. -/
def gappedDay : List (Environment × Operation) :=
  [({ faults := fun call _ => if call = .commit then some (.unavailable "offline") else none },
      .execute smallRequest),
    ({}, .execute smallRequest), ({}, .deleteExchange ⟨3⟩)]

theorem run_numbers_gappedDay :
    Reachable smallBook ∧
      (run gappedDay { book := smallBook }).drafts.exchanges.map (·.id.number) = [1, 2, 3, 4] ∧
      (run gappedDay { book := smallBook }).book.exchanges.map (·.id.number) = [4] ∧
      ∀ later, (run later (run gappedDay { book := smallBook })).Unknown ⟨2⟩ ∧
        (run later (run gappedDay { book := smallBook })).Unknown ⟨3⟩ := by
  have hreachable : Reachable smallBook := .of_snapshot smallBook_loaded
  obtain ⟨-, ⟨-, hnumbers⟩, -, -, -, hspent⟩ := @run_numbers smallBook hreachable gappedDay _ rfl
  have hdrawn : (run gappedDay { book := smallBook }).drafts.exchanges.length = 4 := by
    decide +kernel
  have hfailed : (run gappedDay { book := smallBook }).book.Spent ⟨2⟩ :=
    ⟨by decide +kernel, by decide +kernel⟩
  have hdeleted : (run gappedDay { book := smallBook }).book.Spent ⟨3⟩ :=
    ⟨by decide +kernel, by decide +kernel⟩
  refine ⟨hreachable, ?_, by decide +kernel, fun later => ?_⟩
  · rw [hnumbers, hdrawn]
    rfl
  · exact ⟨(hspent _ _ hfailed later).2, (hspent _ _ hdeleted later).2⟩

end ExchangeDesk
