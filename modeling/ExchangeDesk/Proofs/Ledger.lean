import Mathlib.Algebra.Ring.Rat
import ExchangeDesk.Proofs.Decimal
import ExchangeDesk.Proofs.Runs
import ExchangeDesk.Proofs.Setup

/-!
# The ledger over a run

Only committed legs are posted. So what a run adds to the till transactions and
to the journal is what its legs were posted with, leg after leg (`run_posts`),
and every currency stays balanced.
-/

namespace ExchangeDesk

variable {env : Environment} {s s' : Session} {b b' b'' : Book} {legs legs' : List ExecutedLeg}

-- ---------------------------------------------------------------------------
-- Legs that came into a book
-- ---------------------------------------------------------------------------

/-- The exchanges of a book whose numbers another one does not hold. -/
def Book.newExchanges (b b' : Book) : List Exchange :=
  b'.exchanges.filter fun e => (b.findExchange e.id).isNone

/-- The legs were posted, and nothing else came into the ledger. -/
structure Book.Posts (b b' : Book) (legs : List ExecutedLeg) : Prop where
  posted : ∀ leg ∈ legs, ∃ instant sequence,
    PostingsOf b leg.exchange instant sequence leg.postings
  transactions : b'.transactions = b.transactions ++
    (legs.flatMap (·.postings.movements)).map (·.transaction)
  journal : b'.journal = b.journal ++
    (legs.flatMap (·.postings.movements)).flatMap fun m => [m.debit, m.credit]
  setup : b.SameSetup b'

namespace Book.Posts

theorem of_ledger (ht : b'.transactions = b.transactions) (hj : b'.journal = b.journal)
    (hs : b.SameSetup b') : b.Posts b' [] :=
  ⟨by simp, by simpa using ht, by simpa using hj, hs⟩

theorem append (h : b.Posts b' legs) (h' : b'.Posts b'' legs') : b.Posts b'' (legs ++ legs') := by
  refine ⟨?_, ?_, ?_, h.setup.trans h'.setup⟩
  · intro leg hleg
    rcases List.mem_append.mp hleg with hleg | hleg
    · exact h.posted leg hleg
    · obtain ⟨instant, sequence, hposted⟩ := h'.posted leg hleg
      exact ⟨instant, sequence,
        hposted.of_setup h.setup.cashiers.symm h.setup.accounts.symm⟩
  · rw [h'.transactions, h.transactions]
    simp
  · rw [h'.journal, h.journal]
    simp

theorem settles (h : b.Posts b' legs) : ∀ leg ∈ legs,
    Settles b leg.exchange .outward leg.postings.outward ∧
      Settles b leg.exchange .inward leg.postings.inward := by
  intro leg hleg
  obtain ⟨_, _, hposted⟩ := h.posted leg hleg
  exact hposted.settles

theorem movement (h : b.Posts b' legs) : ∀ m ∈ legs.flatMap (·.postings.movements),
    ∃ leg ∈ legs, ∃ direction, Settles b leg.exchange direction m := by
  intro m hm
  obtain ⟨leg, hleg, hm⟩ := List.mem_flatMap.mp hm
  obtain ⟨hout, hin⟩ := h.settles leg hleg
  simp only [LegPostings.movements, List.mem_cons, List.not_mem_nil, or_false] at hm
  rcases hm with rfl | rfl
  · exact ⟨leg, hleg, .outward, hout⟩
  · exact ⟨leg, hleg, .inward, hin⟩

end Book.Posts

theorem Book.newExchanges_eq_nil (h : ∀ e' ∈ b'.exchanges, ∃ e ∈ b.exchanges, e.id = e'.id) :
    b.newExchanges b' = [] := by
  refine List.filter_eq_nil_iff.mpr fun e' he' => ?_
  obtain ⟨e, he, hid⟩ := h e' he'
  simpa [findExchange] using ⟨e, he, hid⟩

theorem Quiet.newExchanges (h : Quiet env b b') : b.newExchanges b' = [] := by
  refine Book.newExchanges_eq_nil fun e he => ?_
  rcases h.exchanges e he with he | ⟨id, changes, current, applied, hcorrection⟩
  · exact ⟨e, he, rfl⟩
  · obtain ⟨hid, hid'⟩ := hcorrection.id_eq
    exact ⟨current, List.mem_of_find?_eq_some hcorrection.found, hid.trans hid'.symm⟩

theorem Book.newExchanges_withLegs (hfresh : ∀ leg ∈ legs, b.findExchange leg.exchange.id = none)
    (h : b'.exchanges = (b.withLegs legs).exchanges) :
    b.newExchanges b' = legs.map (·.exchange) := by
  rw [newExchanges, h, withLegs, List.filter_append]
  have hold : b.newExchanges b = [] := newExchanges_eq_nil fun e he => ⟨e, he, rfl⟩
  rw [newExchanges] at hold
  rw [hold, List.nil_append, List.filter_eq_self]
  intro e he
  obtain ⟨leg, hleg, rfl⟩ := List.mem_map.mp he
  simp [hfresh leg hleg]

theorem Committed.newExchanges {request : ExchangeRequest} {plans : List PlannedLeg} {t : Session}
    (h : Committed request plans legs s t) (hdrawn : t.book.Draws b') :
    s.book.newExchanges b' = legs.map (·.exchange) := by
  obtain ⟨n, -, rfl⟩ := hdrawn
  exact Book.newExchanges_withLegs h.fresh (by rw [h.book])

theorem Committed.posts {request : ExchangeRequest} {plans : List PlannedLeg} {t : Session}
    (h : Committed request plans legs s t) (hdrawn : t.book.Draws b') : s.book.Posts b' legs := by
  obtain ⟨n, -, rfl⟩ := hdrawn
  refine ⟨h.written.posted, ?_, ?_, ?_⟩
  · simp [h.book, Book.withLegs, List.map_flatMap]
  · simp [h.book, Book.withLegs, List.flatMap_assoc, LegPostings.entries]
  · rw [h.book]
    exact ⟨rfl, rfl, rfl⟩

theorem Effect.posts (h : Effect env s s') : ∃ legs, s.book.Posts s'.book legs ∧
    s.book.newExchanges s'.book = legs.map (·.exchange) := by
  have hsetup := h.setup
  rcases h.quiet_or_exchanged with hquiet | ⟨_, _, _, _, _, _, legs, _, -, hcommitted, hdrawn, -⟩
  · exact ⟨[], .of_ledger hquiet.transactions hquiet.journal hsetup, hquiet.newExchanges⟩
  · exact ⟨legs, hcommitted.posts hdrawn, hcommitted.newExchanges hdrawn⟩

/-- The exchanges that were committed in a run, in order. -/
def committedIn : List (Environment × Operation) → Session → List Exchange
  | [], _ => []
  | (env, op) :: rest, s =>
    s.book.newExchanges (op.after env s).book ++ committedIn rest (op.after env s)

theorem run_posts (tasks : List (Environment × Operation)) (s : Session) :
    ∃ legs, s.book.Posts (run tasks s).book legs ∧ committedIn tasks s = legs.map (·.exchange) := by
  induction tasks generalizing s with
  | nil => exact ⟨[], .of_ledger rfl rfl (.refl _), rfl⟩
  | cons task rest ih =>
    obtain ⟨env, op⟩ := task
    obtain ⟨legs, hposts, hnew⟩ := (op.after_effect env s).posts
    obtain ⟨legs', hposts', hnew'⟩ := ih (op.after env s)
    refine ⟨legs ++ legs', hposts.append hposts', ?_⟩
    rw [committedIn, hnew, hnew', List.map_append]

-- ---------------------------------------------------------------------------
-- Balance
-- ---------------------------------------------------------------------------

/-- The sum of the signed amounts in a currency, as a number. -/
def position (currency : CurrencyCode) (entries : List JournalEntry) : Rat :=
  ((entries.filter (·.currency = currency)).map (·.signedAmount.value)).sum

theorem position_append (currency : CurrencyCode) (entries entries' : List JournalEntry) :
    position currency (entries ++ entries') =
      position currency entries + position currency entries' := by
  simp [position]

theorem position_flatMap {α : Type} {currency : CurrencyCode} {f : α → List JournalEntry}
    {l : List α} (h : ∀ a ∈ l, position currency (f a) = 0) : position currency (l.flatMap f) = 0 := by
  induction l with
  | nil => rfl
  | cons a l ih =>
    rw [List.flatMap_cons, position_append, h a List.mem_cons_self, Rat.zero_add]
    exact ih fun x hx => h x (List.mem_cons_of_mem a hx)

theorem Settles.balanced {e : Exchange} {direction : Direction} {m : CashMovement}
    (h : Settles b e direction m) (currency : CurrencyCode) :
    position currency [m.debit, m.credit] = 0 := by
  obtain ⟨hside, hcredit⟩ := h.sides
  have hsum : m.debit.signedAmount.value + m.credit.signedAmount.value = 0 := by
    rw [hcredit]
    simp only [JournalEntry.signedAmount, hside, Decimal.value_neg]
    exact Rat.add_neg_cancel _
  have hsame : m.credit.currency = m.debit.currency := by rw [hcredit]
  by_cases hc : m.debit.currency = currency
  · simp [position, hsame, hc, hsum]
  · simp [position, hsame, hc]

section

variable {e e' : Exchange} {activity : Activity} {entry entry' : JournalEntry}

theorem EntryOf.elsewhere {currency : CurrencyCode} {direction : Direction}
    (h : EntryOf b e direction activity entry) (hne : e.currencyMoved direction ≠ currency) :
    position currency [entry] = 0 := by
  simp [position, h.currency, hne]

theorem EntryOf.cancels (h : EntryOf b e .inward activity entry)
    (h' : EntryOf b e' .outward activity entry') (hcurrency : e'.currencyFrom = e.currencyTo)
    (hamount : e'.amountGiven = e.amountTaken) :
    position e.currencyTo [entry, entry'] = 0 := by
  have hin : entry.currency = e.currencyTo := h.currency
  have hout : entry'.currency = e.currencyTo := h'.currency.trans hcurrency
  have hsame : entry'.amount = entry.amount := (h'.amount.trans hamount).trans h.amount.symm
  have hsum : entry.signedAmount.value + entry'.signedAmount.value = 0 := by
    unfold JournalEntry.signedAmount
    rw [h.side, h'.side, hsame]
    cases activity with
    | cashAtMainVault =>
      simp only [Activity.side, Decimal.value_neg]
      exact Rat.neg_add_cancel _
    | cashAtTeller =>
      simp only [Activity.side, Decimal.value_neg]
      exact Rat.add_neg_cancel _
  simp [position, hin, hout, hsum]

end

theorem Settles.passes {first second : Exchange} {p q : LegPostings}
    (hp : Settles b first .outward p.outward) (hp' : Settles b first .inward p.inward)
    (hq : Settles b second .outward q.outward) (hq' : Settles b second .inward q.inward)
    (hout : second.currencyFrom = first.currencyTo) (hs : first.currencyFrom ≠ first.currencyTo)
    (ht : second.currencyTo ≠ first.currencyTo) (hamount : second.amountGiven = first.amountTaken)
    (activity : Activity) :
    position first.currencyTo ((p.movements ++ q.movements).map (·.entryAt activity)) = 0 := by
  have hsplit : (p.movements ++ q.movements).map (·.entryAt activity) =
      [p.outward.entryAt activity] ++
        ([p.inward.entryAt activity, q.outward.entryAt activity] ++
          [q.inward.entryAt activity]) := rfl
  rw [hsplit, position_append, position_append, (hp.entryAt activity).elsewhere hs,
    (hp'.entryAt activity).cancels (hq.entryAt activity) hout hamount,
    (hq'.entryAt activity).elsewhere ht, Rat.add_zero, Rat.add_zero]

theorem length_entries (movements : List CashMovement) :
    (movements.flatMap fun m => [m.debit, m.credit]).length = 2 * movements.length := by
  simp [Nat.mul_comm]

/-- After any run from a loaded book the journal sums to zero in each currency and has two entries
for each cash movement. The movements are those of the legs committed in the run, for each an
outward and then an inward one, as `Settles` says of its record. -/
theorem run_ledger {snapshot : Snapshot} (h : Book.ofSnapshot snapshot = .ok s.book)
    (tasks : List (Environment × Operation)) :
    (∀ currency, position currency (run tasks s).book.journal = 0) ∧
    (run tasks s).book.journal.length = 2 * (run tasks s).book.transactions.length ∧
    ∃ legs : List ExecutedLeg, legs.map (·.exchange) = committedIn tasks s ∧
      (run tasks s).book.transactions =
        (legs.flatMap (·.postings.movements)).map (·.transaction) ∧
      (run tasks s).book.journal =
        (legs.flatMap (·.postings.movements)).flatMap (fun m => [m.debit, m.credit]) ∧
      ∀ leg ∈ legs, Settles s.book leg.exchange .outward leg.postings.outward ∧
        Settles s.book leg.exchange .inward leg.postings.inward := by
  obtain ⟨-, ht, hj⟩ := Book.ofSnapshot_unused h
  obtain ⟨legs, hposts, hlegs⟩ := run_posts tasks s
  have htransactions := hposts.transactions
  have hjournal := hposts.journal
  rw [ht, List.nil_append] at htransactions
  rw [hj, List.nil_append] at hjournal
  refine ⟨fun currency => ?_, ?_, legs, hlegs.symm, htransactions, hjournal, hposts.settles⟩
  · rw [hjournal]
    refine position_flatMap fun m hm => ?_
    obtain ⟨leg, -, direction, hm⟩ := hposts.movement m hm
    exact hm.balanced currency
  · rw [hjournal, htransactions, List.length_map, length_entries]

def smallDay : List (Environment × Operation) :=
  [({}, .execute { currencyFrom := ⟨"USD"⟩, currencyTo := ⟨"EUR"⟩, amount := hundred
                   date := openingDay, user := ⟨⟨1⟩, ⟨7⟩⟩ }),
    ({}, .deleteExchange ⟨1⟩)]

theorem run_ledger_smallDay :
    Book.ofSnapshot smallDesk = .ok smallBook ∧
      position ⟨"UGX"⟩ (run smallDay { book := smallBook }).book.journal = 0 ∧
      (committedIn smallDay { book := smallBook }).length = 2 ∧
      (run smallDay { book := smallBook }).book.exchanges.length = 1 ∧
      (run smallDay { book := smallBook }).book.journal.length = 8 := by
  refine ⟨smallBook_loaded, ?_, by decide +kernel, by decide +kernel, ?_⟩
  · exact (run_ledger (s := { book := smallBook }) smallBook_loaded smallDay).1 ⟨"UGX"⟩
  · rw [(run_ledger (s := { book := smallBook }) smallBook_loaded smallDay).2.1]
    decide +kernel

end ExchangeDesk
