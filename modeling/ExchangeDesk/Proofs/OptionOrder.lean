import ExchangeDesk.Proofs.Forms

/-!
# The order of options

The options of a command may stand in any order and be given again: what a command prints depends
on the last value of each option and on whether `--per-leg` is given (`run_lastValues`). So options
of different names may change places, and one that is given again need not be given before
(`SameLast.swap`, `SameLast.again`). What stands behind an option is its value even where it is the
name of another one, because no other settings are spelled the same (`spell_injective`).
-/

namespace ExchangeDesk.CommandLine

variable {settings settings' l l' : List Setting} {s s' : Setting} {flag raw : String}
  {files : Files} {clock : Nat → Instant}

-- ---------------------------------------------------------------------------
-- One way to spell settings
-- ---------------------------------------------------------------------------

def Setting.Fits (names : List String) : Setting → Prop
  | .value flag _ => flag ∈ names
  | .switch name => name ∉ names

theorem Setting.fits_of_taken? {options : Type} {flags : List (ValueFlag options)}
    {switches : List (String × (options → options))} {o o' : options}
    (h : s.taken? flags switches o = some o') : s.Fits (flags.map (·.name)) := by
  cases s with
  | value name raw =>
    obtain ⟨flag, hmem, rfl, -⟩ := Setting.taken?_value h
    exact List.mem_map_of_mem hmem
  | switch name =>
    simp only [Setting.taken?] at h
    split at h
    · cases h
    · next hnone => simpa [Setting.Fits] using hnone

theorem spell_injective {names : List String} (h : ∀ s ∈ settings, s.Fits names)
    (h' : ∀ s ∈ settings', s.Fits names) (heq : spell settings' = spell settings) :
    settings' = settings := by
  induction settings generalizing settings' with
  | nil =>
    cases settings' with
    | nil => rfl
    | cons s' _ => cases s' <;> cases heq
  | cons s settings ih =>
    obtain ⟨hs, hsettings⟩ := List.forall_mem_cons.mp h
    cases settings' with
    | nil => cases s <;> cases heq
    | cons s' settings' =>
      obtain ⟨hs', hsettings'⟩ := List.forall_mem_cons.mp h'
      rw [spell_cons, spell_cons] at heq
      -- the same name cannot be that of an option and of a switch
      match s, s' with
      | .value flag raw, .value flag' raw' =>
        simp only [Setting.args, List.cons_append, List.nil_append, List.cons.injEq] at heq
        obtain ⟨rfl, rfl, hrest⟩ := heq
        rw [ih hsettings hsettings' hrest]
      | .switch name, .switch name' =>
        obtain ⟨rfl, hrest⟩ := List.cons.inj heq
        rw [ih hsettings hsettings' hrest]
      | .value flag raw, .switch name =>
        obtain ⟨rfl, -⟩ := List.cons.inj heq
        exact absurd hs hs'
      | .switch name, .value flag raw =>
        obtain ⟨rfl, -⟩ := List.cons.inj heq
        exact absurd hs' hs

theorem ExchangeSetting.fits (h : ExchangeSetting s) :
    s.Fits (exchangeFlags.map (·.name)) :=
  Setting.fits_of_taken? (@exchangeOptions_concat [] s h)

-- ---------------------------------------------------------------------------
-- The rate command
-- ---------------------------------------------------------------------------

inductive RateSetting : Setting → Prop
  | text {flag : String} (raw : String) (hflag : flag ∈ ["--book", "--currency", "--format"]) :
      RateSetting (.value flag raw)
  | type {raw : String} {t : RateType} (h : rateTypeValue raw = .ok t) :
      RateSetting (.value "--type" raw)
  | date {raw : String} {d : Date} (h : Date.read .strict raw = .ok d) :
      RateSetting (.value "--date" raw)

/-- What the rate command reads: the last value of each option. -/
def rateOptions (settings : List Setting) : RateOptions where
  book := lastValue? settings "--book"
  currency := lastValue? settings "--currency"
  type := (lastValue? settings "--type").bind fun raw => (rateTypeValue raw).toOption
  date := (lastValue? settings "--date").bind fun raw => (dateValue raw).toOption
  format := (lastValue? settings "--format").getD "text"

theorem rateOptions_concat (hs : RateSetting s) :
    s.taken? rateFlags [] (rateOptions settings) = some (rateOptions (settings ++ [s])) := by
  cases hs with
  | text raw hflag =>
    simp only [List.mem_cons, List.not_mem_nil, or_false] at hflag
    rcases hflag with rfl | rfl | rfl <;>
      simp [Setting.taken?, rateFlags, rateOptions, lastValue?_concat, Setting.valueOf?,
        Except.toOption]
  | type h =>
    simp [Setting.taken?, rateFlags, rateOptions, lastValue?_concat, Setting.valueOf?, h,
      Except.toOption, bind, Except.bind, pure, Except.pure]
  | @date raw d h =>
    have hvalue : dateValue raw = .ok d := by rw [dateValue, h]; rfl
    simp [Setting.taken?, rateFlags, rateOptions, lastValue?_concat, Setting.valueOf?, hvalue,
      Except.toOption, bind, Except.bind, pure, Except.pure]

theorem RateSetting.fits (h : RateSetting s) : s.Fits (rateFlags.map (·.name)) :=
  Setting.fits_of_taken? (@rateOptions_concat [] s h)

theorem RateSetting.of_taken? {o o' : RateOptions} (h : s.taken? rateFlags [] o = some o') :
    RateSetting s := by
  cases s with
  | value name raw =>
    obtain ⟨flag, hmem, rfl, hkept⟩ := Setting.taken?_value h
    simp only [rateFlags, List.mem_cons, List.not_mem_nil, or_false] at hmem
    rcases hmem with rfl | rfl | rfl | rfl | rfl
    · exact .text raw (by decide)
    · exact .text raw (by decide)
    · obtain ⟨t, ht, -⟩ := bind_ok.mp hkept
      exact .type ht
    · obtain ⟨d, hd, -⟩ := bind_ok.mp hkept
      exact .date (mapError_ok.mp hd)
    · exact .text raw (by decide)
  | switch name => simp [Setting.taken?] at h

theorem readRate_ok {args : List String} {o : RateOptions} :
    readOptions rateFlags [] {} args = .ok o ↔ ∃ settings,
      args = spell settings ∧ (∀ s ∈ settings, RateSetting s) ∧ o = rateOptions settings := by
  simp only [readOptions_ok]
  exact exists_congr fun settings => and_congr_right fun _ =>
    foldlM_taken rateOptions (fun _ _ => rateOptions_concat) fun _ _ _ => RateSetting.of_taken?

theorem runRate_ok {o : RateOptions} {path raw : String} {book : Book} {currency : CurrencyCode}
    {type : RateType} {date : Date} {rate : Rate} {s : Session} (hpath : o.book = some path)
    (hbook : loadBook files path = .ok book) (hraw : o.currency = some raw)
    (hcurrency : CurrencyCode.parse raw = .ok currency) (htype : o.type = some type)
    (hdate : o.date = some date)
    (hrate : Desk.resolveAsOf currency type date { clock } { book } = (.ok rate, s)) :
    runRate files clock o =
      .ok ⟨0, (if o.format = "json" then rate.toJson.pretty else rate.text) ++ "\n", ""⟩ := by
  simp only [runRate, bind_ok, require_ok, mapError_ok]
  refine ⟨path, hpath, book, hbook, raw, hraw, currency, hcurrency, type, htype, date, hdate, ?_⟩
  rw [hrate]
  rfl

theorem runRate_timeless (files : Files) (clock clock' : Nat → Instant) (o : RateOptions) :
    runRate files clock' o = runRate files clock o := by
  unfold runRate
  refine bind_congr fun path => bind_congr fun book => bind_congr fun raw =>
    bind_congr fun currency => bind_congr fun type => bind_congr fun date => ?_
  have hticks (clock : Nat → Instant) :=
    Desk.resolveAsOf_retimed currency type date {} clock { book }
  have hresult := (hticks clock').trans (hticks clock).symm
  dsimp only at hresult
  rcases hrun' : Desk.resolveAsOf currency type date { clock := clock' } { book } with ⟨result, s'⟩
  rcases hrun : Desk.resolveAsOf currency type date { clock } { book } with ⟨_, s⟩
  rw [hrun', hrun] at hresult
  obtain rfl : result = _ := hresult
  cases result with
  | ok rate => rfl
  | error e => rfl

-- ---------------------------------------------------------------------------
-- Last values
-- ---------------------------------------------------------------------------

/-- Each option has the same last value, and `--per-leg` is given in both or in neither. -/
structure SameLast (settings settings' : List Setting) : Prop where
  value : ∀ flag, lastValue? settings' flag = lastValue? settings flag
  perLeg : Setting.switch "--per-leg" ∈ settings' ↔ Setting.switch "--per-leg" ∈ settings

theorem Setting.valueOf?_none (h : s.name ≠ flag) : s.valueOf? flag = none := by
  cases s with
  | value flag' raw => exact if_neg h
  | switch name => rfl

theorem SameLast.swap (h : s.name ≠ s'.name) :
    SameLast (l ++ s :: s' :: l') (l ++ s' :: s :: l') where
  value flag := by
    simp only [lastValue?_append, lastValue?_cons]
    by_cases hs : s.name = flag
    · rw [Setting.valueOf?_none fun hs' => h (hs.trans hs'.symm), Option.or_none, Option.or_none]
    · rw [Setting.valueOf?_none hs, Option.or_none, Option.or_none]
  perLeg := by
    simp only [List.mem_append, List.mem_cons]
    tauto

theorem SameLast.again (h : (lastValue? l' flag).isSome) :
    SameLast (l ++ .value flag raw :: l') (l ++ l') where
  value flag' := by
    simp only [lastValue?_append, lastValue?_cons]
    by_cases hflag : flag = flag'
    · obtain ⟨later, hlater⟩ := Option.isSome_iff_exists.mp h
      rw [← hflag, hlater]
      rfl
    · rw [Setting.valueOf?_none (s := .value flag raw) hflag, Option.or_none]
  perLeg := by simp

theorem lastValue?_none (h : flag ∉ settings.map Setting.name) :
    lastValue? settings flag = none := by
  by_contra hvalue
  obtain ⟨raw, hs⟩ := lastValue?_isSome.mp (Option.ne_none_iff_isSome.mp hvalue)
  exact h (List.mem_map_of_mem hs)

theorem sameLast_iff : SameLast settings settings' ↔
    (∀ flag ∈ (settings ++ settings').map Setting.name,
      lastValue? settings' flag = lastValue? settings flag) ∧
    (Setting.switch "--per-leg" ∈ settings' ↔ Setting.switch "--per-leg" ∈ settings) := by
  refine ⟨fun h => ⟨fun flag _ => h.value flag, h.perLeg⟩, fun ⟨hvalue, hperLeg⟩ => ⟨?_, hperLeg⟩⟩
  intro flag
  by_cases hflag : flag ∈ (settings ++ settings').map Setting.name
  · exact hvalue flag hflag
  · rw [List.map_append, List.mem_append, not_or] at hflag
    rw [lastValue?_none hflag.1, lastValue?_none hflag.2]

instance : Decidable (SameLast settings settings') := decidable_of_iff _ sameLast_iff.symm

theorem SameLast.exchangeOptions_eq (h : SameLast settings settings') :
    exchangeOptions settings' = exchangeOptions settings := by
  simp only [exchangeOptions, h.value, h.perLeg]

theorem SameLast.rateOptions_eq (h : SameLast settings settings') :
    rateOptions settings' = rateOptions settings := by
  simp only [rateOptions, h.value]

-- ---------------------------------------------------------------------------
-- Commands
-- ---------------------------------------------------------------------------

theorem exchange_read (h : ∀ s ∈ settings, ExchangeSetting s) :
    Command.ofArgs? ("exchange" :: spell settings) =
      .ok (some (.exchange (exchangeOptions settings))) := by
  simp [Command.ofArgs?, readExchange_ok.mpr ⟨settings, rfl, h, rfl⟩]

theorem rate_read (h : ∀ s ∈ settings, RateSetting s) :
    Command.ofArgs? ("rate" :: spell settings) = .ok (some (.rate (rateOptions settings))) := by
  simp [Command.ofArgs?, readRate_ok.mpr ⟨settings, rfl, h, rfl⟩]

/-- Arguments that spell settings of a command are read as these settings, whatever the values look
like, and spell no others. Settings with the same last values (`SameLast`) have the same outcome: a
rate by any clocks, and an exchange up to the readings of the clock that fill one form. -/
theorem run_lastValues (files : Files) :
    (∀ settings settings' : List Setting,
      (∀ s ∈ settings, ExchangeSetting s) → (∀ s ∈ settings', ExchangeSetting s) →
      Command.ofArgs? ("exchange" :: spell settings) =
          .ok (some (.exchange (exchangeOptions settings))) ∧
        (spell settings' = spell settings → settings' = settings) ∧
        (SameLast settings settings' → ∃ form : OutcomeForm, ∀ clock,
          run files clock ("exchange" :: spell settings) = form.fill clock ∧
            run files clock ("exchange" :: spell settings') = form.fill clock)) ∧
    ∀ settings settings' : List Setting,
      (∀ s ∈ settings, RateSetting s) → (∀ s ∈ settings', RateSetting s) →
      Command.ofArgs? ("rate" :: spell settings) = .ok (some (.rate (rateOptions settings))) ∧
        (spell settings' = spell settings → settings' = settings) ∧
        (SameLast settings settings' → ∀ clock clock',
          run files clock' ("rate" :: spell settings') =
            run files clock ("rate" :: spell settings)) := by
  refine ⟨fun settings settings' h h' => ⟨?_, ?_, fun hlast => ?_⟩,
    fun settings settings' h h' => ⟨?_, ?_, fun hlast clock clock' => ?_⟩⟩
  · exact exchange_read h
  · exact spell_injective (fun s hs => (h s hs).fits) fun s hs => (h' s hs).fits
  · obtain ⟨form, hform⟩ := runExchange_formed files (exchangeOptions settings)
    refine ⟨form, fun clock => ⟨?_, ?_⟩⟩
    · rw [run, exchange_read h]
      exact hform clock
    · rw [run, exchange_read h', hlast.exchangeOptions_eq]
      exact hform clock
  · exact rate_read h
  · exact spell_injective (fun s hs => (h s hs).fits) fun s hs => (h' s hs).fits
  · rw [run, run, rate_read h, rate_read h', hlast.rateOptions_eq]
    exact congrArg ended (runRate_timeless files clock clock' _)

def steppedFiles : Files := fun _ => .ok steppedDesk.toJson.compact

/-- The exchange of `largestExchange` in another order. Amount and format are given again, the
format first with the name of a switch for its value. -/
def shuffledExchange : List Setting := [
  .value "--format" "--per-leg", .value "--user" "7", .value "--amount" "1",
  .value "--date" "2026-07-01", .value "--amount" "79228162514264337593543950335",
  .value "--to" "EUR", .value "--from" "USD", .value "--format" "json",
  .value "--book" "desk.json"]

def dollarRate : List Setting := [
  .value "--book" "--type", .value "--currency" "USD", .value "--type" "buying",
  .value "--date" "2026-07-01"]

def shuffledRate : List Setting := [
  .value "--date" "2026-07-01", .value "--currency" "--date", .value "--type" "1",
  .value "--book" "--type", .value "--type" "buying", .value "--currency" "USD"]

theorem openingDay_read : Date.read .strict "2026-07-01" = .ok openingDay := by decide +kernel

theorem shuffledExchange_settings : ∀ s ∈ shuffledExchange, ExchangeSetting s := by
  have hone : Decimal.read "1" = .ok (.whole 1) := by decide +kernel
  have hlargest : Decimal.read "79228162514264337593543950335" =
      .ok (.whole 79228162514264337593543950335) := by decide +kernel
  have huser : Text.unsigned? "7".toList = some 7 := by decide +kernel
  simp only [shuffledExchange, List.forall_mem_cons, List.not_mem_nil, IsEmpty.forall_iff,
    implies_true, and_true]
  exact ⟨.format _, .id (by decide) huser (by decide), .amount hone, .date openingDay_read,
    .amount hlargest, .text _ (by decide), .text _ (by decide), .format _, .text _ (by decide)⟩

theorem dollarRate_settings : ∀ s ∈ dollarRate, RateSetting s := by
  have hbuying : rateTypeValue "buying" = .ok .buying := by decide +kernel
  simp only [dollarRate, List.forall_mem_cons, List.not_mem_nil, IsEmpty.forall_iff,
    implies_true, and_true]
  exact ⟨.text _ (by decide), .text _ (by decide), .type hbuying, .date openingDay_read⟩

theorem shuffledRate_settings : ∀ s ∈ shuffledRate, RateSetting s := by
  have hone : rateTypeValue "1" = .ok .buying := by decide +kernel
  have hbuying : rateTypeValue "buying" = .ok .buying := by decide +kernel
  simp only [shuffledRate, List.forall_mem_cons, List.not_mem_nil, IsEmpty.forall_iff,
    implies_true, and_true]
  exact ⟨.date openingDay_read, .text _ (by decide), .type hone, .text _ (by decide),
    .type hbuying, .text _ (by decide)⟩

theorem shuffledRate_found (clock : Nat → Instant) :
    (run steppedFiles clock ("rate" :: spell shuffledRate)).code = 0 := by
  have hbuying : rateTypeValue "buying" = .ok .buying := by decide +kernel
  have hdate : dateValue "2026-07-01" = .ok openingDay := by decide +kernel
  have hcode : CurrencyCode.parse "USD" = .ok ⟨"USD"⟩ := by rfl
  have hloaded : loadBook steppedFiles "--type" = .ok steppedBook := by
    obtain ⟨snapshot, hread, hbook⟩ := steppedDesk_read
    exact loadBook_ok.mpr ⟨_, snapshot, rfl, hread, hbook⟩
  have hoptions : rateOptions shuffledRate =
      { book := some "--type", currency := some "USD", type := some .buying
        date := some openingDay } := by
    simp [rateOptions, shuffledRate, lastValue?, Setting.valueOf?, hbuying, hdate, Except.toOption]
  have hfound : (Desk.resolveAsOf ⟨"USD"⟩ .buying openingDay { clock := tick }
      { book := steppedBook }).1.isOk = true := by decide +kernel
  rcases hrun : Desk.resolveAsOf ⟨"USD"⟩ .buying openingDay { clock := tick }
    { book := steppedBook } with ⟨_ | rate, s⟩
  · rw [hrun] at hfound
    cases hfound
  · rw [run, rate_read shuffledRate_settings, hoptions]
    dsimp only
    rw [runRate_timeless steppedFiles tick clock, runRate_ok rfl hloaded rfl hcode rfl rfl hrun]
    rfl

theorem run_lastValues_shuffled :
    SameLast shuffledExchange (largestExchange "json") ∧ SameLast shuffledRate dollarRate ∧
      Command.ofArgs? ("exchange" :: spell shuffledExchange) =
        .ok (some (.exchange (exchangeOptions shuffledExchange))) ∧
      (exchangeOptions shuffledExchange).atomicity = .allLegs ∧
      (run steppedFiles (fun _ => ⟨0⟩) ("exchange" :: spell shuffledExchange)).code = 0 ∧
      Command.ofArgs? ("rate" :: spell shuffledRate) =
        .ok (some (.rate (rateOptions shuffledRate))) ∧
      ∀ clock clock', (run steppedFiles clock ("rate" :: spell shuffledRate)).code = 0 ∧
        run steppedFiles clock' ("rate" :: spell dollarRate) =
          run steppedFiles clock ("rate" :: spell shuffledRate) := by
  obtain ⟨first, second, book, hexchanged, -⟩ := largestExchange_exchanged
  have hexchange : SameLast shuffledExchange (largestExchange "json") := by decide
  have hrate : SameLast shuffledRate dollarRate := by decide
  obtain ⟨hexchanges, hrates⟩ := run_lastValues steppedFiles
  obtain ⟨hread, -, hsame⟩ :=
    hexchanges _ _ shuffledExchange_settings (hexchanged "json").wellFormed
  obtain ⟨hreadRate, -, hsameRate⟩ := hrates _ _ shuffledRate_settings dollarRate_settings
  obtain ⟨form, hform⟩ := hsame hexchange
  refine ⟨hexchange, hrate, hread, by decide, ?_, hreadRate,
    fun clock clock' => ⟨shuffledRate_found clock, hsameRate hrate clock clock'⟩⟩
  obtain ⟨hshuffledRun, hlargestRun⟩ := hform fun _ => ⟨0⟩
  have hrun : run steppedFiles (fun _ => ⟨0⟩) ("exchange" :: spell (largestExchange "json")) =
      printed (exchangeOptions (largestExchange "json")) [first, second] book :=
    (hexchanged "json").run
  rw [hshuffledRun, ← hlargestRun, hrun]
  rfl

end ExchangeDesk.CommandLine
