import ExchangeDesk.Proofs.Lockstep

/-!
# What an exchange rests on

`SameGrounds` lists all that an exchange takes from the registry and from the
rates of a book: what is known of its two sides, who has the home flag if both or
neither of the sides has it, and the rates in force for the sides without it.
Where two desks have the same grounds, their exchanges are in step
(`execute_inStep`).
-/

namespace ExchangeDesk

variable {env env' : Environment} {b b' : Book} {request : ExchangeRequest}
  {he : env.Alike env'}

structure SameGrounds (env env' : Environment) (b b' : Book) (request : ExchangeRequest) :
    Prop where
  known : ∀ code, request.Names code →
    env'.registry.find? (·.code = code) = env.registry.find? (·.code = code)
  homes : ∀ source target, Sides env b request source target → source.isHome = target.isHome →
    env'.registry.filter (·.isHome) = env.registry.filter (·.isHome)
  buying : ∀ source target, Sides env b request source target → source.isHome = false →
    b'.findRateAsOf source.code .buying request.date =
      b.findRateAsOf source.code .buying request.date
  selling : ∀ source target, Sides env b request source target → target.isHome = false →
    b'.findRateAsOf target.code .selling request.date =
      b.findRateAsOf target.code .selling request.date

theorem Sides.of_finds {source target : Currency}
    (h : (Coupling.lockstep he b b').Finds request.currencyFrom source)
    (h' : (Coupling.lockstep he b b').Finds request.currencyTo target) :
    Sides env b request source target := by
  have hknown {s s' : Session} (hs : s.Alike b b' s') (code : CurrencyCode) :
      knownCurrency env s.book code = knownCurrency env b code := by
    simp only [knownCurrency, Book.findCurrency, hs.currencies]
  obtain ⟨_, _, code, hs, hparse, hsource⟩ := h
  obtain ⟨_, _, code', hs', hparse', htarget⟩ := h'
  exact ⟨⟨code, hparse, (hknown hs code).symm.trans hsource⟩,
    ⟨code', hparse', (hknown hs' code').symm.trans htarget⟩⟩

theorem Session.Alike.findRateAsOf {s s' : Session} (hs : s.Alike b b' s')
    {currency : CurrencyCode} {type : RateType} {date : Date}
    (h : b'.findRateAsOf currency type date = b.findRateAsOf currency type date) :
    s'.book.findRateAsOf currency type date = s.book.findRateAsOf currency type date := by
  simp only [Book.findRateAsOf] at h ⊢
  rw [hs.rates_eq, h, hs.rates]

theorem SameGrounds.preparation (hg : SameGrounds env env' b b' request) :
    (Coupling.lockstep he b b').Preparation request request.amount Eq where
  positive := .ofExcept_same
  noted _ := rfl
  known := hg.known _
  homes hsource htarget := hg.homes _ _ (.of_finds hsource htarget)
  planned hsource htarget hfrom hto := by
    have hsides := Sides.of_finds hsource htarget
    exact Desk.plan_couples_same (fun hne _ _ hs => hs.findRateAsOf (hg.buying _ _ hsides (hfrom hne)))
      fun hne _ _ hs => hs.findRateAsOf (hg.selling _ _ hsides (hto hne))

theorem Desk.execute_inStep (he : env.Alike env') (hg : SameGrounds env env' b b' request)
    {s s' : Session} (hs : s.Alike b b' s') :
    EndAlike (Session.Alike b b') True SameLegs (execute request env s) (execute request env' s') :=
  (execute_couples (Coupling.inStep he b b' request) hg.preparation).mono
    (fun _ _ => .of_inStep) s s' hs

end ExchangeDesk
