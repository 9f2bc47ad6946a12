import Mathlib.Data.List.Induction
import ExchangeDesk.CommandLine.Options
import ExchangeDesk.Proofs.Checks

/-!
# Arguments as settings

The arguments of a command spell settings: options with their values, and switches. A list of
arguments is read exactly if it spells settings that the command takes (`readOptions_ok`). The
exchange command takes what `ExchangeSetting` says, and reads the last value of each option
(`readExchange_ok`).
-/

namespace ExchangeDesk.CommandLine

inductive Setting where
  | value (flag raw : String)
  | switch (name : String)
  deriving DecidableEq, Repr

namespace Setting

def args : Setting → List String
  | .value flag raw => [flag, raw]
  | .switch name => [name]

def valueOf? (flag : String) : Setting → Option String
  | .value flag' raw => if flag' = flag then some raw else none
  | .switch _ => none

def name : Setting → String
  | .value flag _ => flag
  | .switch name => name

end Setting

def spell (settings : List Setting) : List String := settings.flatMap Setting.args

def lastValue? (settings : List Setting) (flag : String) : Option String :=
  (settings.filterMap (Setting.valueOf? flag)).getLast?

variable {settings settings' : List Setting} {s : Setting} {args : List String}
  {flag raw : String}

@[simp] theorem spell_nil : spell [] = [] := rfl

@[simp] theorem spell_cons : spell (s :: settings) = s.args ++ spell settings := rfl

theorem spell_append (l l' : List Setting) : spell (l ++ l') = spell l ++ spell l' :=
  List.flatMap_append

theorem mem_spell (h : Setting.value flag raw ∈ settings) : flag ∈ spell settings :=
  List.mem_flatMap.mpr ⟨_, h, List.mem_cons_self⟩

theorem lastValue?_append :
    lastValue? (settings ++ settings') flag =
      (lastValue? settings' flag).or (lastValue? settings flag) := by
  rw [lastValue?, List.filterMap_append, List.getLast?_append]
  rfl

theorem lastValue?_singleton : lastValue? [s] flag = s.valueOf? flag := by
  cases h : s.valueOf? flag <;> simp [lastValue?, h]

theorem lastValue?_concat :
    lastValue? (settings ++ [s]) flag = (s.valueOf? flag).or (lastValue? settings flag) := by
  rw [lastValue?_append, lastValue?_singleton]

theorem lastValue?_cons :
    lastValue? (s :: settings) flag = (lastValue? settings flag).or (s.valueOf? flag) := by
  rw [← List.singleton_append, lastValue?_append, lastValue?_singleton]

theorem Setting.valueOf?_eq_some : s.valueOf? flag = some raw ↔ s = .value flag raw := by
  cases s with
  | value flag' raw' =>
    simp only [Setting.valueOf?, Setting.value.injEq]
    split <;> simp_all
  | switch name => simp [Setting.valueOf?]

theorem lastValue?_mem (h : lastValue? settings flag = some raw) : .value flag raw ∈ settings := by
  obtain ⟨s, hs, hvalue⟩ := List.mem_filterMap.mp (List.mem_of_getLast? h)
  exact Setting.valueOf?_eq_some.mp hvalue ▸ hs

theorem lastValue?_isSome :
    (lastValue? settings flag).isSome ↔ ∃ raw, Setting.value flag raw ∈ settings := by
  constructor
  · intro h
    obtain ⟨raw, hraw⟩ := Option.isSome_iff_exists.mp h
    exact ⟨raw, lastValue?_mem hraw⟩
  · rintro ⟨raw, hs⟩
    rw [lastValue?, ← Option.ne_none_iff_isSome, ne_eq, List.getLast?_eq_none_iff]
    exact List.ne_nil_of_mem (List.mem_filterMap.mpr ⟨_, hs, Setting.valueOf?_eq_some.mpr rfl⟩)

/-- An option and a value that is no name are one setting: if the option were the value of another
one, the value would have to be a name. -/
theorem spell_split {before after : List String}
    (hsettings : ∀ s ∈ settings, s.name ≠ raw ∧ s ≠ .switch flag)
    (h : before ++ flag :: raw :: after = spell settings) :
    ∃ l l', settings = l ++ .value flag raw :: l' ∧ before = spell l ∧ after = spell l' := by
  induction settings generalizing before with
  | nil => simp at h
  | cons s settings ih =>
    obtain ⟨⟨hname, hswitch⟩, hrest⟩ := List.forall_mem_cons.mp hsettings
    rw [spell_cons] at h
    cases s with
    | value flag' raw' =>
      match before with
      | [] =>
        simp only [Setting.args, List.cons_append, List.nil_append, List.cons.injEq] at h
        obtain ⟨rfl, rfl, rfl⟩ := h
        exact ⟨[], settings, rfl, rfl, rfl⟩
      | [x] =>
        simp only [Setting.args, List.cons_append, List.nil_append, List.cons.injEq] at h
        obtain ⟨-, -, h⟩ := h
        cases settings with
        | nil => simp at h
        | cons s' settings =>
          have hname' := (hrest s' List.mem_cons_self).1
          cases s' <;> exact absurd (List.cons.inj h).1.symm hname'
      | x :: y :: before =>
        simp only [Setting.args, List.cons_append, List.nil_append, List.cons.injEq] at h
        obtain ⟨rfl, rfl, h⟩ := h
        obtain ⟨l, l', rfl, rfl, rfl⟩ := ih hrest h
        exact ⟨.value x y :: l, l', rfl, rfl, rfl⟩
    | switch name =>
      match before with
      | [] =>
        simp only [Setting.args, List.cons_append, List.nil_append, List.cons.injEq] at h
        obtain ⟨rfl, -⟩ := h
        exact absurd rfl hswitch
      | x :: before =>
        simp only [Setting.args, List.cons_append, List.nil_append, List.cons.injEq] at h
        obtain ⟨rfl, h⟩ := h
        obtain ⟨l, l', rfl, rfl, rfl⟩ := ih hrest h
        exact ⟨.switch x :: l, l', rfl, rfl, rfl⟩

-- ---------------------------------------------------------------------------
-- Reading
-- ---------------------------------------------------------------------------

section

variable {options : Type} {flags : List (ValueFlag options)}
  {switches : List (String × (options → options))} {o o' : options}

/-- What a setting makes of the options, if it is one of the command and its value is taken. -/
def Setting.taken? (flags : List (ValueFlag options))
    (switches : List (String × (options → options))) (o : options) : Setting → Option options
  | .value name raw =>
    (flags.find? (·.name = name)).bind fun flag => (flag.keep o raw).toOption
  | .switch name =>
    if (flags.find? (·.name = name)).isSome then none else (switches.lookup name).map (· o)

theorem Setting.taken?_value {name raw : String}
    (h : (Setting.value name raw).taken? flags switches o = some o') :
    ∃ flag ∈ flags, flag.name = name ∧ flag.keep o raw = .ok o' := by
  obtain ⟨flag, hflag, hkeep⟩ := Option.bind_eq_some_iff.mp h
  refine ⟨flag, List.mem_of_find?_eq_some hflag, by simpa using List.find?_some hflag, ?_⟩
  cases hkept : flag.keep o raw with
  | error e => simp [hkept, Except.toOption] at hkeep
  | ok kept => simpa [hkept, Except.toOption] using hkeep

theorem readOptions_setting {rest : List String} {o₁ : options}
    (h : s.taken? flags switches o = some o₁) :
    readOptions flags switches o (s.args ++ rest) = readOptions flags switches o₁ rest := by
  cases s with
  | value name raw =>
    obtain ⟨flag, hflag, hkeep⟩ := Option.bind_eq_some_iff.mp h
    cases hkept : flag.keep o raw with
    | error e => simp [hkept, Except.toOption] at hkeep
    | ok kept =>
      obtain rfl : kept = o₁ := by simpa [hkept, Except.toOption] using hkeep
      simp only [Setting.args, List.cons_append, List.nil_append, readOptions, hflag, hkept]
      rfl
  | switch name =>
    simp only [Setting.taken?] at h
    split at h
    · cases h
    · next hflag =>
      obtain ⟨set, hset, rfl⟩ := Option.map_eq_some_iff.mp h
      rw [Option.not_isSome_iff_eq_none] at hflag
      simp only [Setting.args, List.cons_append, List.nil_append, readOptions, hflag, hset]

theorem readOptions_spell (h : settings.foldlM (Setting.taken? flags switches) o = some o') :
    readOptions flags switches o (spell settings) = .ok o' := by
  induction settings generalizing o with
  | nil =>
    cases h
    rw [spell_nil, readOptions]
  | cons s settings ih =>
    rw [List.foldlM_cons] at h
    obtain ⟨o₁, hs, hrest⟩ := Option.bind_eq_some_iff.mp h
    rw [spell_cons, readOptions_setting hs]
    exact ih hrest

theorem settings_of_readOptions (h : readOptions flags switches o args = .ok o') :
    ∃ settings, args = spell settings ∧
      settings.foldlM (Setting.taken? flags switches) o = some o' := by
  induction o, args using readOptions.induct flags switches with
  | case1 o =>
    rw [readOptions] at h
    cases h
    exact ⟨[], rfl, rfl⟩
  | case2 o name flag hflag =>
    simp [readOptions, hflag] at h
  | case3 o name flag hflag raw rest ih =>
    simp only [readOptions, hflag, bind_ok] at h
    obtain ⟨kept, hkeep, hrest⟩ := h
    obtain ⟨settings, rfl, hsettings⟩ := ih kept hrest
    refine ⟨.value name raw :: settings, rfl, ?_⟩
    rw [List.foldlM_cons, Setting.taken?, hflag, Option.bind_some, hkeep]
    exact hsettings
  | case4 o name rest hflag set hset ih =>
    simp only [readOptions, hflag, hset] at h
    obtain ⟨settings, rfl, hsettings⟩ := ih h
    refine ⟨.switch name :: settings, rfl, ?_⟩
    rw [List.foldlM_cons, Setting.taken?, hflag, hset]
    exact hsettings
  | case5 o name rest hflag hset =>
    simp [readOptions, hflag, hset] at h

theorem readOptions_ok : readOptions flags switches o args = .ok o' ↔
    ∃ settings, args = spell settings ∧
      settings.foldlM (Setting.taken? flags switches) o = some o' := by
  refine ⟨settings_of_readOptions, ?_⟩
  rintro ⟨settings, rfl, hsettings⟩
  exact readOptions_spell hsettings

/-- If each setting takes the options of the settings before to those with it, all settings are read
to the options of them all. -/
theorem foldlM_taken (read : List Setting → options) {Takes : Setting → Prop}
    (hread : ∀ settings s, Takes s →
      s.taken? flags switches (read settings) = some (read (settings ++ [s])))
    (htakes : ∀ s o o', s.taken? flags switches o = some o' → Takes s) :
    settings.foldlM (Setting.taken? flags switches) (read []) = some o ↔
      (∀ s ∈ settings, Takes s) ∧ o = read settings := by
  induction settings using List.reverseRecOn generalizing o with
  | nil => simp [eq_comm]
  | append_singleton settings s ih =>
    simp only [List.foldlM_append, List.foldlM_cons, List.foldlM_nil, Option.bind_eq_bind,
      Option.bind_eq_some_iff, ih, List.mem_append, List.mem_singleton]
    constructor
    · rintro ⟨_, ⟨hsettings, rfl⟩, o', hs, ho⟩
      cases ho
      have hsetting := htakes _ _ _ hs
      refine ⟨fun s' hs' => ?_, ?_⟩
      · rcases hs' with hs' | rfl
        · exact hsettings s' hs'
        · exact hsetting
      · exact Option.some.inj (hs.symm.trans (hread _ _ hsetting))
    · rintro ⟨hsettings, rfl⟩
      exact ⟨_, ⟨fun s' hs' => hsettings s' (.inl hs'), rfl⟩, _, hread _ _ (hsettings s (.inr rfl)),
        rfl⟩

end

-- ---------------------------------------------------------------------------
-- The exchange command
-- ---------------------------------------------------------------------------

/-- The settings of the exchange command, each with a value that its option takes. -/
inductive ExchangeSetting : Setting → Prop
  | text {flag : String} (raw : String) (hflag : flag ∈
      ["--book", "--from", "--to", "--client-id", "--client-name", "--format"]) :
      ExchangeSetting (.value flag raw)
  | amount {raw : String} {d : Decimal} (h : Decimal.read raw = .ok d) :
      ExchangeSetting (.value "--amount" raw)
  | date {raw : String} {d : Date} (h : Date.read .strict raw = .ok d) :
      ExchangeSetting (.value "--date" raw)
  | id {flag raw : String} {n : Nat} (hflag : flag ∈ ["--user", "--staff"])
      (h : Text.unsigned? raw.toList = some n) (hn : n < UInt64.size) :
      ExchangeSetting (.value flag raw)
  | perLeg : ExchangeSetting (.switch "--per-leg")

theorem ExchangeSetting.switch_eq {name : String} (h : ExchangeSetting (.switch name)) :
    name = "--per-leg" := by
  cases h
  rfl

theorem ExchangeSetting.name_ne_format (h : ExchangeSetting s) : s.name ∉ ["json", "text"] := by
  cases h with
  | text raw hflag =>
    simp only [List.mem_cons, List.not_mem_nil, or_false] at hflag
    rcases hflag with rfl | rfl | rfl | rfl | rfl | rfl <;> simp [Setting.name]
  | amount h => simp [Setting.name]
  | date h => simp [Setting.name]
  | id hflag h hn =>
    simp only [List.mem_cons, List.not_mem_nil, or_false] at hflag
    rcases hflag with rfl | rfl <;> simp [Setting.name]
  | perLeg => simp [Setting.name]

/-- What the exchange command reads: the last value of each option. -/
def exchangeOptions (settings : List Setting) : ExchangeOptions where
  book := lastValue? settings "--book"
  source := lastValue? settings "--from"
  target := lastValue? settings "--to"
  amount := (lastValue? settings "--amount").bind fun raw => (amountValue raw).toOption
  date := (lastValue? settings "--date").bind fun raw => (dateValue raw).toOption
  user := (lastValue? settings "--user").bind fun raw => (idValue "--user" raw).toOption
  staff := (lastValue? settings "--staff").bind fun raw => (idValue "--staff" raw).toOption
  clientId := lastValue? settings "--client-id"
  clientName := lastValue? settings "--client-name"
  atomicity := if .switch "--per-leg" ∈ settings then .perLeg else .allLegs
  format := (lastValue? settings "--format").getD "text"

theorem idValue_ok {n : Nat} (h : Text.unsigned? raw.toList = some n) (hn : n < UInt64.size) :
    idValue flag raw = .ok n := by
  rw [idValue, h]
  exact if_pos hn

theorem exchangeOptions_concat (hs : ExchangeSetting s) :
    s.taken? exchangeFlags exchangeSwitches (exchangeOptions settings) =
      some (exchangeOptions (settings ++ [s])) := by
  cases hs with
  | text raw hflag =>
    simp only [List.mem_cons, List.not_mem_nil, or_false] at hflag
    rcases hflag with rfl | rfl | rfl | rfl | rfl | rfl <;>
      simp [Setting.taken?, exchangeFlags, exchangeOptions, lastValue?_concat, Setting.valueOf?,
        Except.toOption]
  | @amount raw d h =>
    have hvalue : amountValue raw = .ok d := by rw [amountValue, h]; rfl
    simp [Setting.taken?, exchangeFlags, exchangeOptions, lastValue?_concat, Setting.valueOf?,
      hvalue, Except.toOption, bind, Except.bind, pure, Except.pure]
  | @date raw d h =>
    have hvalue : dateValue raw = .ok d := by rw [dateValue, h]; rfl
    simp [Setting.taken?, exchangeFlags, exchangeOptions, lastValue?_concat, Setting.valueOf?,
      hvalue, Except.toOption, bind, Except.bind, pure, Except.pure]
  | id hflag h hn =>
    simp only [List.mem_cons, List.not_mem_nil, or_false] at hflag
    rcases hflag with rfl | rfl <;>
      simp [Setting.taken?, exchangeFlags, exchangeOptions, lastValue?_concat, Setting.valueOf?,
        idValue_ok h hn, Except.toOption, bind, Except.bind, pure, Except.pure]
  | perLeg =>
    simp [Setting.taken?, exchangeFlags, exchangeSwitches, exchangeOptions, lastValue?_concat,
      Setting.valueOf?]

theorem idValue_some {n : Nat} (h : idValue flag raw = .ok n) :
    Text.unsigned? raw.toList = some n ∧ n < UInt64.size := by
  unfold idValue at h
  split at h
  · next m hm =>
    split at h
    · next hlt =>
      cases h
      exact ⟨hm, hlt⟩
    · cases h
  · cases h

theorem ExchangeSetting.of_taken? {o o' : ExchangeOptions}
    (h : s.taken? exchangeFlags exchangeSwitches o = some o') : ExchangeSetting s := by
  cases s with
  | value name raw =>
    obtain ⟨flag, hmem, rfl, hkept⟩ := Setting.taken?_value h
    simp only [exchangeFlags, List.mem_cons, List.not_mem_nil, or_false] at hmem
    rcases hmem with rfl | rfl | rfl | rfl | rfl | rfl | rfl | rfl | rfl | rfl
    · exact .text raw (by decide)
    · exact .text raw (by decide)
    · exact .text raw (by decide)
    · obtain ⟨d, hd, -⟩ := bind_ok.mp hkept
      exact .amount (mapError_ok.mp hd)
    · obtain ⟨d, hd, -⟩ := bind_ok.mp hkept
      exact .date (mapError_ok.mp hd)
    · obtain ⟨n, hn, -⟩ := bind_ok.mp hkept
      exact .id (by decide) (idValue_some hn).1 (idValue_some hn).2
    · obtain ⟨n, hn, -⟩ := bind_ok.mp hkept
      exact .id (by decide) (idValue_some hn).1 (idValue_some hn).2
    · exact .text raw (by decide)
    · exact .text raw (by decide)
    · exact .text raw (by decide)
  | switch name =>
    simp only [Setting.taken?] at h
    split at h
    · cases h
    · obtain ⟨set, hset, -⟩ := Option.map_eq_some_iff.mp h
      simp only [exchangeSwitches, List.lookup_cons, List.lookup_nil] at hset
      split at hset
      · next hname =>
        obtain rfl := eq_of_beq hname
        exact .perLeg
      · cases hset

theorem foldlM_exchange {o : ExchangeOptions} :
    settings.foldlM (Setting.taken? exchangeFlags exchangeSwitches) {} = some o ↔
      (∀ s ∈ settings, ExchangeSetting s) ∧ o = exchangeOptions settings :=
  foldlM_taken exchangeOptions (fun _ _ => exchangeOptions_concat)
    fun _ _ _ => ExchangeSetting.of_taken?

theorem readExchange_ok {o : ExchangeOptions} :
    readOptions exchangeFlags exchangeSwitches {} args = .ok o ↔ ∃ settings,
      args = spell settings ∧ (∀ s ∈ settings, ExchangeSetting s) ∧
        o = exchangeOptions settings := by
  simp only [readOptions_ok, foldlM_exchange]

theorem bind_toOption_isSome {α : Type} {value : String → Except UsageError α}
    {given : Option String} (h : ∀ raw e, given = some raw → value raw ≠ .error e) :
    (given.bind fun raw => (value raw).toOption).isSome = given.isSome := by
  cases given with
  | none => rfl
  | some raw =>
    cases hvalue : value raw with
    | ok a => simp [hvalue, Except.toOption]
    | error e => exact absurd hvalue (h raw e rfl)

theorem exchangeOptions_isSome (h : ∀ s ∈ settings, ExchangeSetting s) :
    (exchangeOptions settings).amount.isSome = (lastValue? settings "--amount").isSome ∧
      (exchangeOptions settings).date.isSome = (lastValue? settings "--date").isSome ∧
      (exchangeOptions settings).user.isSome = (lastValue? settings "--user").isSome := by
  have htaken {flag raw : String} (hraw : lastValue? settings flag = some raw) :=
    @exchangeOptions_concat [] _ (h _ (lastValue?_mem hraw))
  refine ⟨bind_toOption_isSome fun raw e hraw hvalue => ?_,
    bind_toOption_isSome fun raw e hraw hvalue => ?_,
    bind_toOption_isSome fun raw e hraw hvalue => ?_⟩
  · have htaken' := htaken hraw
    simp [Setting.taken?, exchangeFlags, hvalue, bind, Except.bind, Except.toOption] at htaken'
  · have htaken' := htaken hraw
    simp [Setting.taken?, exchangeFlags, hvalue, bind, Except.bind, Except.toOption] at htaken'
  · have htaken' := htaken hraw
    simp [Setting.taken?, exchangeFlags, hvalue, bind, Except.bind, Except.toOption] at htaken'

-- ---------------------------------------------------------------------------
-- The format
-- ---------------------------------------------------------------------------

theorem ExchangeSetting.format (format : String) : ExchangeSetting (.value "--format" format) :=
  .text format (by decide)

section

variable {l l' : List Setting}

theorem lastValue?_replaceFormat (format format' : String) (h : flag ≠ "--format") :
    lastValue? (l ++ .value "--format" format :: l') flag =
      lastValue? (l ++ .value "--format" format' :: l') flag := by
  simp [lastValue?, List.filterMap_append, Setting.valueOf?, h.symm]

theorem exchangeOptions_replaceFormat (format format' : String) :
    exchangeOptions (l ++ .value "--format" format :: l') =
      { exchangeOptions (l ++ .value "--format" format' :: l') with
        format := (exchangeOptions (l ++ .value "--format" format :: l')).format } := by
  have hlast {flag : String} (h : flag ≠ "--format") :
      lastValue? (l ++ .value "--format" format :: l') flag =
        lastValue? (l ++ .value "--format" format' :: l') flag :=
    lastValue?_replaceFormat format format' h
  simp [exchangeOptions, hlast]

theorem exchangeOptions_format (format : String) :
    (exchangeOptions (l ++ .value "--format" format :: l')).format =
      (lastValue? l' "--format").getD format := by
  simp only [exchangeOptions, lastValue?, List.filterMap_append, List.filterMap_cons,
    Setting.valueOf?, if_true, List.getLast?_append, List.getLast?_cons]
  cases (l'.filterMap (Setting.valueOf? "--format")).getLast? <;> rfl

end
end ExchangeDesk.CommandLine
