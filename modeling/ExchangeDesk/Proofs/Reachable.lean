import ExchangeDesk.Proofs.Lists
import ExchangeDesk.Proofs.Runs
import ExchangeDesk.Proofs.Setup

/-!
# Reachable books

A book is reachable if it comes from an empty one by the calls that a book
offers. Loading gives a reachable book and the desk keeps it so. `Book.Sound`
collects what the lookups of a desk rely on in every reachable book.
-/

namespace ExchangeDesk

variable {env : Environment} {s s' : Session} {b b' : Book}

/-- Books that come from an empty one. The exchanges that are committed have
drawn their numbers before. -/
inductive Reachable : Book → Prop
  | empty : Reachable .empty
  | addCurrency {b b' : Book} {currency : Currency} (hb : Reachable b)
      (h : b.addCurrency currency = .ok b') : Reachable b'
  | addCashier {b b' : Book} {cashier : Cashier} (hb : Reachable b)
      (h : b.addCashier cashier = .ok b') : Reachable b'
  | addAccount {b b' : Book} {account : ActivityAccount} (hb : Reachable b)
      (h : b.addAccount account = .ok b') : Reachable b'
  | insertRate {b : Book} (rate : NewRate) (hb : Reachable b) : Reachable (b.insertRate rate).2
  | replaceRate {b b' : Book} {rate : Rate} (hb : Reachable b)
      (h : b.replaceRate rate = .ok b') : Reachable b'
  | replaceExchange {b b' : Book} {exchange : Exchange} (hb : Reachable b)
      (h : b.replaceExchange exchange = .ok b') : Reachable b'
  | deleteExchange {b : Book} (id : ExchangeId) (hb : Reachable b) :
      Reachable (b.deleteExchange id).2
  | draw {b : Book} (hb : Reachable b) : Reachable { b with nextExchange := b.nextExchange + 1 }
  | commit {b b' : Book} {staged : Staged} (hb : Reachable b)
      (drawn : ∀ e ∈ staged.exchanges, e.id.number < b.nextExchange)
      (distinct : (staged.exchanges.map (·.id)).Nodup) (h : b.commit staged = .ok b') :
      Reachable b'

namespace Reachable

theorem of_snapshot {snapshot : Snapshot} (h : Book.ofSnapshot snapshot = .ok b) : Reachable b := by
  refine Book.ofSnapshot_invariant (fun _ _ _ hb h => hb.addCurrency h) ?_
    (fun _ _ _ hb h => hb.addCashier h) (fun _ _ _ hb h => hb.addAccount h) empty h
  intro b r b' hb hr
  obtain ⟨valid, -, rfl⟩ := Book.loadRate_ok hr
  exact hb.insertRate valid

-- ---------------------------------------------------------------------------
-- The desk
-- ---------------------------------------------------------------------------

theorem draws (hb : Reachable b) (h : b.Draws b') : Reachable b' := by
  obtain ⟨n, hn, rfl⟩ := h
  induction hn with
  | refl => exact hb
  | step _ ih => exact ih.draw

theorem committed {request : ExchangeRequest} {plans : List PlannedLeg} {legs : List ExecutedLeg}
    (hb : Reachable s.book) (h : Committed request plans legs s s') : Reachable s'.book := by
  have hdrawn := hb.draws ⟨s.book.nextExchange + legs.length, Nat.le_add_right _ _, rfl⟩
  have hcommit : Book.commit { s.book with nextExchange := s.book.nextExchange + legs.length }
      (Staged.addLegs {} legs) = .ok s'.book := by
    refine Book.commit_ok.mpr ⟨?_, by rw [h.book]; rfl⟩
    intro e he
    obtain ⟨leg, hleg, rfl⟩ := List.mem_map.mp he
    exact h.fresh leg hleg
  refine hdrawn.commit ?_ ?_ hcommit
  · intro e he
    obtain ⟨leg, hleg, rfl⟩ := List.mem_map.mp he
    exact (h.written.number_mem hleg).2
  · simpa [Staged.addLegs, Function.comp_def] using h.written.ids_nodup

theorem effect (hb : Reachable s.book) (h : Effect env s s') : Reachable s'.book := by
  cases h with
  | spared h => exact hb.draws h.book
  | exchanged _ hcommitted hdrawn => exact (hb.committed hcommitted).draws hdrawn
  | corrected hcorrection hbook =>
    obtain ⟨-, hid⟩ := hcorrection.id_eq
    have hfound := hcorrection.found
    rw [← hid] at hfound
    rw [hbook]
    exact hb.replaceExchange (Book.replaceExchange_found hfound)
  | deleted hbook =>
    rw [hbook]
    exact hb.deleteExchange _
  | created _ _ hbook =>
    rw [hbook]
    exact hb.insertRate _
  | revised hrevision hbook =>
    obtain ⟨-, hid⟩ := hrevision.id_eq
    have hfound := hrevision.found
    rw [← hid] at hfound
    rw [hbook]
    exact hb.replaceRate (Book.replaceRate_found hfound)

theorem run (hb : Reachable s.book) (tasks : List (Environment × Operation)) :
    Reachable (run tasks s).book :=
  run_invariant (I := fun s => Reachable s.book) (fun _ _ _ hb h => hb.effect h) tasks hb

end Reachable

-- ---------------------------------------------------------------------------
-- What holds in every reachable book
-- ---------------------------------------------------------------------------

structure Book.Sound (b : Book) : Prop where
  codes : (b.currencies.map (·.code)).Nodup
  oneHome : b.homeCurrencies.length ≤ 1
  rateIds : (b.rates.map (·.id)).Nodup
  rateNumbers : ∀ r ∈ b.rates, r.id.number < b.nextRate

namespace Book

theorem Sound.findRate_eq (h : b.Sound) {rate : Rate} (hr : rate ∈ b.rates) :
    b.findRate rate.id = some rate :=
  find?_key h.rateIds hr

theorem Sound.of_eq (h : b.Sound) (hc : b'.currencies = b.currencies) (hr : b'.rates = b.rates)
    (hn : b'.nextRate = b.nextRate) : b'.Sound := by
  obtain ⟨hcodes, hhome, hids, hnumbers⟩ := h
  exact ⟨by rwa [hc], by rwa [homeCurrencies, hc], by rwa [hr], by rwa [hr, hn]⟩

theorem Sound.addCurrency (h : b.Sound) {currency : Currency}
    (hadd : b.addCurrency currency = .ok b') : b'.Sound := by
  obtain ⟨code, -, hfresh, hhome, rfl⟩ := addCurrency_ok hadd
  refine ⟨?_, ?_, h.rateIds, h.rateNumbers⟩
  · refine nodup_map_concat.mpr ⟨h.codes, ?_⟩
    intro hmem
    obtain ⟨c, hc, hcode⟩ := List.mem_map.mp hmem
    simpa [hcode] using List.find?_eq_none.mp hfresh c hc
  · rw [homeCurrencies, List.filter_append, List.length_append]
    cases hflag : currency.isHome with
    | false => simpa [homeCurrencies, hflag] using h.oneHome
    | true =>
      have hnone : b.currencies.filter (·.isHome) = [] :=
        List.filter_eq_nil_iff.mpr fun c hc => by simp [hhome hflag c hc]
      simp [hnone]

theorem Sound.insertRate (h : b.Sound) (rate : NewRate) : (b.insertRate rate).2.Sound := by
  refine ⟨h.codes, h.oneHome, ?_, ?_⟩
  · refine nodup_map_concat.mpr ⟨h.rateIds, ?_⟩
    intro hmem
    obtain ⟨r, hr, hid⟩ := List.mem_map.mp hmem
    have hlt := h.rateNumbers r hr
    simp [hid] at hlt
  · intro r hr
    rcases List.mem_append.mp hr with hr | hr
    · exact Nat.lt_succ_of_lt (h.rateNumbers r hr)
    · obtain rfl := List.mem_singleton.mp hr
      exact Nat.lt_succ_self _

theorem putRate_ids (b : Book) (rate : Rate) :
    (b.putRate rate).rates.map (·.id) = b.rates.map (·.id) := by
  rw [putRate, List.map_map]
  refine List.map_congr_left fun r _ => ?_
  simp only [Function.comp_apply]
  split
  · next hid => exact hid.symm
  · rfl

theorem insertRate_ids (b : Book) (rate : NewRate) :
    b.rates.map (·.id) <+: (b.insertRate rate).2.rates.map (·.id) := by
  rw [Book.insertRate, List.map_append]
  exact List.prefix_append ..

theorem Sound.putRate (h : b.Sound) (rate : Rate) : (b.putRate rate).Sound := by
  have hids := b.putRate_ids rate
  refine ⟨h.codes, h.oneHome, by rw [hids]; exact h.rateIds, fun r hr => ?_⟩
  have hmem : r.id ∈ b.rates.map (·.id) := hids ▸ List.mem_map_of_mem hr
  obtain ⟨r₀, hr₀, hid⟩ := List.mem_map.mp hmem
  rw [← hid]
  exact h.rateNumbers r₀ hr₀

end Book

theorem Reachable.sound (h : Reachable b) : b.Sound := by
  induction h with
  | empty => exact ⟨List.nodup_nil, Nat.zero_le _, List.nodup_nil, by simp [Book.empty]⟩
  | addCurrency _ hadd ih => exact ih.addCurrency hadd
  | addCashier _ hadd ih =>
    obtain ⟨-, rfl⟩ := Book.addCashier_ok hadd
    exact ih.of_eq rfl rfl rfl
  | addAccount _ hadd ih =>
    obtain ⟨_, -, -, rfl⟩ := Book.addAccount_ok hadd
    exact ih.of_eq rfl rfl rfl
  | insertRate rate _ ih => exact ih.insertRate rate
  | replaceRate _ hreplace ih =>
    rw [Book.replaceRate_ok hreplace]
    exact ih.putRate _
  | replaceExchange _ hreplace ih =>
    rw [Book.replaceExchange_ok hreplace]
    exact ih.of_eq rfl rfl rfl
  | deleteExchange id _ ih => exact ih.of_eq rfl rfl rfl
  | draw _ ih => exact ih.of_eq rfl rfl rfl
  | commit _ _ _ hcommit ih =>
    obtain ⟨-, rfl⟩ := Book.commit_ok.mp hcommit
    exact ih.of_eq rfl rfl rfl

theorem Book.putExchange_ids (b : Book) (exchange : Exchange) :
    (b.putExchange exchange).exchanges.map (·.id) = b.exchanges.map (·.id) := by
  rw [putExchange, List.map_map]
  refine List.map_congr_left fun e _ => ?_
  simp only [Function.comp_apply]
  split
  · next hid => exact hid.symm
  · rfl

/-- The exchanges of a book have numbers that were drawn before, each another one. -/
structure Book.Drawn (b : Book) : Prop where
  distinct : (b.exchanges.map (·.id)).Nodup
  below : ∀ id ∈ b.exchanges.map (·.id), id.number < b.nextExchange

theorem Reachable.drawn (h : Reachable b) : b.Drawn := by
  induction h with
  | empty => exact ⟨List.nodup_nil, by simp [Book.empty]⟩
  | addCurrency _ hadd ih =>
    obtain ⟨_, -, -, -, rfl⟩ := Book.addCurrency_ok hadd
    exact ⟨ih.distinct, ih.below⟩
  | addCashier _ hadd ih =>
    obtain ⟨-, rfl⟩ := Book.addCashier_ok hadd
    exact ⟨ih.distinct, ih.below⟩
  | addAccount _ hadd ih =>
    obtain ⟨_, -, -, rfl⟩ := Book.addAccount_ok hadd
    exact ⟨ih.distinct, ih.below⟩
  | insertRate _ _ ih => exact ⟨ih.distinct, ih.below⟩
  | replaceRate _ hreplace ih =>
    rw [Book.replaceRate_ok hreplace]
    exact ⟨ih.distinct, ih.below⟩
  | @replaceExchange b _ exchange _ hreplace ih =>
    rw [Book.replaceExchange_ok hreplace]
    have hids := b.putExchange_ids exchange
    exact ⟨hids ▸ ih.distinct, hids ▸ ih.below⟩
  | @deleteExchange b id _ ih =>
    have hkept : ((b.deleteExchange id).2.exchanges.map (·.id)).Sublist
        (b.exchanges.map (·.id)) := List.filter_sublist.map _
    exact ⟨ih.distinct.sublist hkept, fun id' hid' => ih.below id' (hkept.subset hid')⟩
  | draw _ ih => exact ⟨ih.distinct, fun id hid => Nat.lt_succ_of_lt (ih.below id hid)⟩
  | commit _ hdrawn hdistinct hcommit ih =>
    obtain ⟨hfresh, rfl⟩ := Book.commit_ok.mp hcommit
    refine ⟨?_, ?_⟩
    · rw [List.map_append, List.nodup_append]
      refine ⟨ih.distinct, hdistinct, ?_⟩
      -- a staged number is one that the book was asked for in vain
      rintro _ hold _ hnew rfl
      obtain ⟨e, he, hid⟩ := List.mem_map.mp hold
      obtain ⟨e', he', hid'⟩ := List.mem_map.mp hnew
      have habsent := List.find?_eq_none.mp (hfresh e' he') e he
      simp [hid, hid'] at habsent
    · rw [List.map_append, List.forall_mem_append]
      exact ⟨ih.below, List.forall_mem_map.mpr hdrawn⟩

theorem Written.absent {request : ExchangeRequest} {plans : List PlannedLeg}
    {legs : List ExecutedLeg} {sequence : Nat} (hb : Reachable b)
    (h : Written b request b.nextExchange sequence plans legs) :
    ∀ leg ∈ legs, b.findExchange leg.exchange.id = none := by
  intro leg hleg
  refine List.find?_eq_none.mpr fun e he => ?_
  have hdrawn := hb.drawn.below _ (List.mem_map_of_mem he)
  have hnew := (h.number_mem hleg).1
  intro hid
  rw [of_decide_eq_true hid] at hdrawn
  exact absurd hdrawn (Nat.not_lt.mpr hnew)

end ExchangeDesk
