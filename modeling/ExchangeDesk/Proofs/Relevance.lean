import ExchangeDesk.Proofs.Codes
import ExchangeDesk.Proofs.Grounds
import ExchangeDesk.Proofs.Meaning

/-!
# Rates that matter

Of all the rates in a book an exchange looks at the buying rates of its source
and the selling rates of its target, unless that is the home currency, and of
these only at the ones up to its day (`Rate.Relevant`). Two books that differ in
other rates give the same answer and get the same records (`execute_relevant`):
no rate that is dated later, of another type or of another currency has any
influence.
-/

namespace ExchangeDesk

open ExchangeDesk.Action

variable {env : Environment} {s : Session} {b b' : Book} {request : ExchangeRequest} {r : Rate}
  {currency : CurrencyCode} {type : RateType} {date : Date}

def Rate.Relevant (env : Environment) (b : Book) (request : ExchangeRequest) (r : Rate) : Prop :=
  r.date ≤ request.date ∧ (∃ c ∈ knownCurrency env b r.currency, c.isHome = false) ∧
    (r.type = .buying ∧ CurrencyCode.parse? request.currencyFrom.text = some r.currency ∨
      r.type = .selling ∧ CurrencyCode.parse? request.currencyTo.text = some r.currency)

instance (env : Environment) (b : Book) (request : ExchangeRequest) (r : Rate) :
    Decidable (r.Relevant env b request) :=
  inferInstanceAs (Decidable (_ ∧ _ ∧ _))

-- ---------------------------------------------------------------------------
-- The same rates of one kind
-- ---------------------------------------------------------------------------

/-- Two books have the same rates of a currency and type up to a day. -/
def Book.SameQuotes (b b' : Book) (currency : CurrencyCode) (type : RateType) (date : Date) :
    Prop :=
  ∀ r, r.currency = currency → r.type = type → r.date ≤ date → (r ∈ b'.rates ↔ r ∈ b.rates)

theorem InForce.of_sameQuotes (h : InForce b currency type date r)
    (hq : b.SameQuotes b' currency type date) : InForce b' currency type date r where
  stored := (hq r h.hasCurrency h.hasType h.dated).mpr h.stored
  hasCurrency := h.hasCurrency
  hasType := h.hasType
  dated := h.dated
  greatest x hx hcurrency htype hdated :=
    h.greatest x ((hq x hcurrency htype hdated).mp hx) hcurrency htype hdated

theorem Book.SameQuotes.symm (h : b.SameQuotes b' currency type date) :
    b'.SameQuotes b currency type date :=
  fun r hcurrency htype hdated => (h r hcurrency htype hdated).symm

theorem Book.SameQuotes.findRateAsOf_eq (h : b.SameQuotes b' currency type date)
    (hids : (b.rates.map (·.id)).Nodup) (hids' : (b'.rates.map (·.id)).Nodup) :
    b'.findRateAsOf currency type date = b.findRateAsOf currency type date := by
  refine Option.ext fun r => ?_
  rw [findRateAsOf_iff hids, findRateAsOf_iff hids']
  exact ⟨fun hr => hr.of_sameQuotes h.symm, fun hr => hr.of_sameQuotes h⟩

-- ---------------------------------------------------------------------------
-- The whole exchange
-- ---------------------------------------------------------------------------

theorem SameGrounds.of_relevant {env' : Environment} (hb : Reachable b) (hb' : Reachable b')
    (hregistry : env'.registry = env.registry)
    (h : ∀ r : Rate, r.Relevant env b request → (r ∈ b'.rates ↔ r ∈ b.rates)) :
    SameGrounds env env' b b' request := by
  refine ⟨fun _ _ => by rw [hregistry], fun _ _ _ _ => by rw [hregistry], ?_, ?_⟩
  · rintro source target ⟨⟨code, hparse, hknown⟩, -⟩ hflag
    have hquotes : b.SameQuotes b' source.code .buying request.date := by
      intro r hcurrency htype hdated
      rw [knownCurrency_code hknown] at hcurrency
      subst hcurrency
      exact h r ⟨hdated, ⟨source, hknown, hflag⟩, .inl ⟨htype, CurrencyCode.parse_iff.mp hparse⟩⟩
    exact hquotes.findRateAsOf_eq hb.sound.rateIds hb'.sound.rateIds
  · rintro source target ⟨-, ⟨code, hparse, hknown⟩⟩ hflag
    have hquotes : b.SameQuotes b' target.code .selling request.date := by
      intro r hcurrency htype hdated
      rw [knownCurrency_code hknown] at hcurrency
      subst hcurrency
      exact h r ⟨hdated, ⟨target, hknown, hflag⟩, .inr ⟨htype, CurrencyCode.parse_iff.mp hparse⟩⟩
    exact hquotes.findRateAsOf_eq hb.sound.rateIds hb'.sound.rateIds

namespace Desk

/-- Two reachable books that differ in rates only, none of them `Relevant` to a request, give it the
same answer and add the same records, but for times. -/
theorem execute_relevant {rates : List Rate} {next : Nat} (hb : Reachable s.book)
    (hb' : Reachable (s.book.withRates rates next))
    (h : ∀ r : Rate, r.Relevant env s.book request → (r ∈ rates ↔ r ∈ s.book.rates))
    (clock : Nat → Instant) :
    (execute request { env with clock } { s with book := s.book.withRates rates next }).1.map
        (·.map (·.untimed)) = (execute request env s).1.map (·.map (·.untimed)) ∧
      (execute request { env with clock }
        { s with book := s.book.withRates rates next }).2.book.untimed =
      (execute request env s).2.book.untimed.withRates rates next := by
  have halike : s.Alike s.book (s.book.withRates rates next)
      { s with book := s.book.withRates rates next } := ⟨rfl, rfl, rfl, rfl, rfl, rfl, rfl, rfl, rfl⟩
  have hgrounds : SameGrounds env { env with clock } s.book (s.book.withRates rates next) request :=
    .of_relevant hb hb' rfl h
  have henv : env.Alike { env with clock } := ⟨rfl, rfl, rfl⟩
  rcases (execute_inStep henv hgrounds halike).cases trivial with
    ⟨legs, legs', t, t', hrun, hrun', hlegs, ht⟩ | ⟨e, t, t', hrun, hrun', ht⟩
  · rw [hrun, hrun']
    exact ⟨congrArg Except.ok hlegs, ht.book⟩
  · rw [hrun, hrun']
    exact ⟨rfl, ht.book⟩

/-- Rates that do not matter to an exchange of dollars into euros on the opening
day: one from the day after, one of the other type, one that is neither bought nor
sold at, and one of the home currency. -/
def noise : List NewRate :=
  [⟨⟨2026, 7, 2, by decide⟩, .buying, ⟨"USD"⟩, .whole 3600⟩,
    ⟨openingDay, .selling, ⟨"USD"⟩, .whole 3750⟩,
    ⟨openingDay, .intermediary, ⟨"EUR"⟩, .whole 4050⟩, ⟨openingDay, .buying, ⟨"UGX"⟩, .whole 2⟩]

def noisyBook : Book := noise.foldl (fun b rate => (b.insertRate rate).2) smallBook

theorem execute_relevant_noisyBook :
    Reachable smallBook ∧ Reachable noisyBook ∧
      (∀ r : Rate, r.Relevant {} smallBook smallRequest →
        (r ∈ noisyBook.rates ↔ r ∈ smallBook.rates)) ∧
      noisyBook.rates.length = smallBook.rates.length + 4 ∧
      (execute smallRequest { clock := fun n => ⟨n * 1000000⟩ } { book := noisyBook }).1.isOk = true ∧
      (execute smallRequest { clock := fun n => ⟨n * 1000000⟩ } { book := noisyBook }).1.map
        (·.map (·.untimed)) =
          (execute smallRequest {} { book := smallBook }).1.map (·.map (·.untimed)) := by
  have hreachable : Reachable smallBook := .of_snapshot smallBook_loaded
  have hnoisy : Reachable noisyBook := by
    have hstep (rates : List NewRate) (b : Book) (hb : Reachable b) :
        Reachable (rates.foldl (fun b rate => (b.insertRate rate).2) b) := by
      induction rates generalizing b with
      | nil => exact hb
      | cons rate rates ih => exact ih _ (hb.insertRate rate)
    exact hstep noise smallBook hreachable
  have hsame : ∀ r : Rate, r.Relevant {} smallBook smallRequest →
      (r ∈ noisyBook.rates ↔ r ∈ smallBook.rates) := by
    have hrates : noisyBook.rates = smallBook.rates ++ noisyBook.rates.drop 4 := by
      decide +kernel
    have hidle : ∀ r ∈ noisyBook.rates.drop 4, ¬ r.Relevant {} smallBook smallRequest := by
      decide +kernel
    intro r hr
    rw [hrates, List.mem_append]
    exact or_iff_left fun hmem => hidle r hmem hr
  refine ⟨hreachable, hnoisy, hsame, by decide +kernel, by decide +kernel, ?_⟩
  exact (@execute_relevant {} { book := smallBook } smallRequest noisyBook.rates
    noisyBook.nextRate hreachable hnoisy hsame fun n => ⟨n * 1000000⟩).1

end Desk
end ExchangeDesk
