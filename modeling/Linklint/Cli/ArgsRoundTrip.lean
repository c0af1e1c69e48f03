import Linklint.Cli.Args

/-!
# Reading back an invocation

The invocations that arguments can spell, and arguments that spell them: the
parser accepts no other, and reads each of these back.
-/

namespace Linklint

namespace Cli

open ParseArgs

/-! ### Invocations that can be spelled -/

/-- Nothing inside the value, padding apart, separates items. -/
def CleanValue (value : Text) : Prop := ∀ u ∈ trimFlagValue value, isSeparator u = false

instance (value : Text) : Decidable (CleanValue value) :=
  inferInstanceAs (Decidable (∀ u ∈ trimFlagValue value, isSeparator u = false))

structure CheckOptions.Valid (options : CheckOptions) : Prop where
  idnAllowlist : ∀ value ∈ options.idnAllowlist, CleanValue value
  denyTlds : ∀ value ∈ options.denyTlds, CleanValue value
  allowTlds : ∀ value ∈ options.allowTlds, CleanValue value
  denyHosts : ∀ value ∈ options.denyHosts, CleanValue value
  allowHosts : ∀ value ∈ options.allowHosts, CleanValue value
  allowSchemes : ∀ value ∈ options.allowSchemes, CleanValue value
  denySchemes : ∀ value ∈ options.denySchemes, CleanValue value
  denyPorts : ∀ port ∈ options.denyPorts, port ≤ MAX_PORT

/-- The invocation is one that arguments can spell. -/
def ParsedCli.Valid : ParsedCli → Prop
  | .help => True
  | .version => True
  | .check urls stdin options =>
      options.Valid ∧ (stdin = true → urls = []) ∧ (stdin = false → urls ≠ [] ∧ urls ≠ [text "-"])
  | .batch file options => options.Valid ∧ file ≠ []

/-! ### Arguments of an invocation -/

abbrev OptionEntry := CliOption × Option Text

def flagEntry (o : CliOption) (on : Bool) : List OptionEntry := if on then [(o, none)] else []

def valueEntries (o : CliOption) (values : List Text) : List OptionEntry :=
  values.map fun value => (o, some value)

def optionEntries (options : CheckOptions) : List OptionEntry :=
  flagEntry .json options.json ++ flagEntry .offline options.offline
    ++ valueEntries .failOn [severityName options.failOn]
    ++ flagEntry .allowInvalid options.allowInvalid ++ flagEntry .quiet options.quiet
    ++ flagEntry .noColor options.noColor ++ flagEntry .agent options.agent
    ++ flagEntry .allowIdn options.allowIdn ++ valueEntries .idnAllow options.idnAllowlist
    ++ valueEntries .denyTld options.denyTlds ++ valueEntries .allowTld options.allowTlds
    ++ valueEntries .denyHost options.denyHosts ++ valueEntries .allowHost options.allowHosts
    ++ valueEntries .allowScheme options.allowSchemes
    ++ valueEntries .denyScheme options.denySchemes
    ++ valueEntries .denyPort (options.denyPorts.map decimalText)
    ++ flagEntry .denyNonStandardPorts options.denyNonStandardPorts

/-- What the arguments of an invocation give. -/
def givenBy : ParsedCli → ParseArgs.Parsed CliOption
  | .help => ⟨flagEntry .help true, []⟩
  | .version => ⟨flagEntry .version true, []⟩
  | .check urls _ options => ⟨optionEntries options, text "check" :: urls⟩
  | .batch file options => ⟨optionEntries options, [text "batch", file]⟩

/-- Arguments that spell an invocation. -/
def renderCli (cli : ParsedCli) : List Text := renderArgs OPTIONS (givenBy cli)

theorem flagEntry_fits {o : CliOption} (h : o.takesValue = false) (on : Bool) :
    ∀ entry ∈ flagEntry o on, FitsConfig OPTIONS entry := by
  intro entry hentry
  cases on with
  | false => cases hentry
  | true =>
      rw [List.mem_singleton.mp hentry]
      exact h.symm

theorem valueEntries_fit {o : CliOption} (h : o.takesValue = true) (values : List Text) :
    ∀ entry ∈ valueEntries o values, FitsConfig OPTIONS entry := by
  intro entry hentry
  obtain ⟨value, -, rfl⟩ := List.mem_map.mp hentry
  exact h.symm

theorem optionEntries_fit (options : CheckOptions) :
    ∀ entry ∈ optionEntries options, FitsConfig OPTIONS entry := by
  simp only [optionEntries, List.forall_mem_append]
  repeat' apply And.intro
  all_goals first
    | exact flagEntry_fits rfl _
    | exact valueEntries_fit rfl _

/-! ### Reading the entries -/

theorem any_flagEntry (o o' : CliOption) (on : Bool) :
    (flagEntry o on).any (fun entry => entry.1 = o') = (on && decide (o = o')) := by
  cases on <;> simp [flagEntry]

theorem any_valueEntries {o o' : CliOption} (h : o ≠ o') (values : List Text) :
    (valueEntries o values).any (fun entry => entry.1 = o') = false := by
  simp [valueEntries, h]

theorem values_flagEntry (o o' : CliOption) (on : Bool) :
    (flagEntry o on).filterMap (fun entry => if entry.1 = o' then entry.2 else none) = [] := by
  cases on <;> simp [flagEntry]

theorem values_valueEntries (o o' : CliOption) (values : List Text) :
    (valueEntries o values).filterMap (fun entry => if entry.1 = o' then entry.2 else none)
      = if o = o' then values else [] := by
  by_cases h : o = o'
  · simp [valueEntries, List.filterMap_map, h]
  · simp [valueEntries, List.filterMap_map, h]

section
variable (options : CheckOptions) (positionals : List Text)

theorem checkOptions_optionEntries :
    checkOptions ⟨optionEntries options, positionals⟩ options.failOn options.denyPorts = options := by
  cases options
  simp [checkOptions, Parsed.given, Parsed.values, optionEntries, List.any_append,
    List.filterMap_append, any_flagEntry, any_valueEntries, values_flagEntry, values_valueEntries]

theorem given_optionEntries :
    (⟨optionEntries options, positionals⟩ : Parsed CliOption).given .help = false ∧
      (⟨optionEntries options, positionals⟩ : Parsed CliOption).given .version = false := by
  simp [Parsed.given, optionEntries, List.any_append, any_flagEntry, any_valueEntries]

/-- The values of every flag that takes one. -/
theorem values_optionEntries (o : CliOption) :
    (⟨optionEntries options, positionals⟩ : Parsed CliOption).values o =
      match o with
      | .failOn => [severityName options.failOn]
      | .idnAllow => options.idnAllowlist
      | .denyTld => options.denyTlds
      | .allowTld => options.allowTlds
      | .denyHost => options.denyHosts
      | .allowHost => options.allowHosts
      | .allowScheme => options.allowSchemes
      | .denyScheme => options.denySchemes
      | .denyPort => options.denyPorts.map decimalText
      | _ => [] := by
  cases o <;>
    simp [Parsed.values, optionEntries, List.filterMap_append, values_flagEntry, values_valueEntries]

end

/-! ### Values -/

theorem severityOf_severityName (severity : Severity) :
    severityOf (severityName severity) = some severity := by
  cases severity <;> decide

theorem assertNotJoined_iff (flag value : Text) :
    assertNotJoined flag value = .ok () ↔ CleanValue value := by
  unfold assertNotJoined CleanValue
  cases hfind : (trimFlagValue value).find? isSeparator with
  | none => simpa using List.find?_eq_none.mp hfind
  | some found =>
      have hseparator := List.find?_some hfind
      constructor
      · intro h
        cases h
      · intro h
        rw [h found (List.mem_of_find?_eq_some hfind)] at hseparator
        cases hseparator

theorem forM_eq_ok_iff {α : Type} {f : α → Except UsageError Unit} {l : List α} :
    l.forM f = .ok () ↔ ∀ a ∈ l, f a = .ok () := by
  induction l with
  | nil => simp [pure, Except.pure]
  | cons a l ih =>
      have hcons : (a :: l).forM f = (f a >>= fun _ => l.forM f) := rfl
      rw [hcons, bind_eq_ok, List.forall_mem_cons, ← ih]
      constructor
      · rintro ⟨⟨⟩, hfirst, hrest⟩
        exact ⟨hfirst, hrest⟩
      · rintro ⟨hfirst, hrest⟩
        exact ⟨(), hfirst, hrest⟩

/-- Every result of a loop of calls is the result of one of them. -/
theorem mem_of_mapM {α β : Type} {f : α → Except UsageError β} {l : List α} {bs : List β}
    (h : List.Forall₂ (fun a b => f a = .ok b) l bs) : ∀ b ∈ bs, ∃ a ∈ l, f a = .ok b := by
  induction h with
  | nil => simp
  | @cons a b l bs hab _ ih =>
      intro b' hb'
      rcases List.mem_cons.mp hb' with rfl | hrest
      · exact ⟨a, List.mem_cons_self .., hab⟩
      · obtain ⟨a', ha', heq⟩ := ih b' hrest
        exact ⟨a', List.mem_cons_of_mem _ ha', heq⟩

theorem screenLists_iff (parsed : Parsed CliOption) :
    screenLists parsed = .ok () ↔
      ∀ o ∈ CliOption.lists, ∀ value ∈ parsed.values o, CleanValue value := by
  simp only [screenLists, forM_eq_ok_iff, assertNotJoined_iff]

theorem digit_visible {u : CodeUnit} (h : isDigit u = true) : VisibleAscii u := by
  have hbounds := (isDigit_iff u).mp h
  exact ⟨by omega, by omega⟩

theorem trim_decimalText (n : Nat) : trimFlagValue (decimalText n) = decimalText n :=
  trim_of_visible fun u hu => digit_visible (decimalText_isDigit n u hu)

theorem cleanValue_decimalText (n : Nat) : CleanValue (decimalText n) := by
  intro u hu
  rw [trim_decimalText] at hu
  have hdigit := decimalText_isDigit n u hu
  have hspace := (digit_visible hdigit).not_space
  have hbounds := (isDigit_iff u).mp hdigit
  have hne : ∀ c : CodeUnit, c.toNat < 48 ∨ 57 < c.toNat → (u == c) = false := by
    intro c hc
    rw [beq_eq_false_iff_ne]
    rintro rfl
    omega
  rw [isSeparator, hspace, hne _ (by decide), hne _ (by decide), hne _ (by decide)]
  rfl

theorem parsePort_decimalText {n : Nat} (h : n ≤ MAX_PORT) : parsePort (decimalText n) = .ok n := by
  have hvalue : numeralValue 10 (decimalText n) = n :=
    numeralValue_numeralText (by decide) (by decide) n
  have hshort : (decimalText n).length ≤ 5 := by
    rw [decimalText, numeralText, List.length_map]
    refine Numeral.digits_length_le (by decide) (by decide) ?_
    have hmax : MAX_PORT < 10 ^ 5 := by decide
    omega
  have hlong : 1 ≤ (decimalText n).length :=
    List.length_pos_iff.mpr (numeralText_ne_nil (by decide) n)
  have hdigits : (decimalText n).all isDigit = true := List.all_eq_true.mpr (decimalText_isDigit n)
  have hport : isPortText (decimalText n) = true := by
    rw [isPortText, hdigits]
    simp [hshort, hlong]
  simp only [parsePort, trim_decimalText, hport, hvalue, Bool.not_true]
  rw [if_neg (by simp), if_neg (by omega)]

theorem parsePort_le {value : Text} {port : Nat} (h : parsePort value = .ok port) :
    port ≤ MAX_PORT := by
  simp only [parsePort] at h
  split at h
  · cases h
  · split at h
    · cases h
    · cases h
      omega

/-! ### The round trip -/

/-- The values of a repeatable flag are clean. -/
theorem CheckOptions.Valid.clean {options : CheckOptions} (h : options.Valid)
    (positionals : List Text) : ∀ o ∈ CliOption.lists,
      ∀ value ∈ (⟨optionEntries options, positionals⟩ : Parsed CliOption).values o,
        CleanValue value := by
  intro o ho value hvalue
  rw [values_optionEntries] at hvalue
  cases o with
  | idnAllow => exact h.idnAllowlist value hvalue
  | denyTld => exact h.denyTlds value hvalue
  | allowTld => exact h.allowTlds value hvalue
  | denyHost => exact h.denyHosts value hvalue
  | allowHost => exact h.allowHosts value hvalue
  | allowScheme => exact h.allowSchemes value hvalue
  | denyScheme => exact h.denySchemes value hvalue
  | denyPort =>
      obtain ⟨port, -, rfl⟩ := List.mem_map.mp hvalue
      exact cleanValue_decimalText port
  | _ => exact absurd ho (by decide)

theorem mapM_parsePort {ports : List Nat} (h : ∀ port ∈ ports, port ≤ MAX_PORT) :
    (ports.map decimalText).mapM parsePort = .ok ports := by
  rw [mapM_eq_ok_iff, List.forall₂_map_left_iff]
  exact List.forall₂_same.mpr fun port hport => parsePort_decimalText (h port hport)

theorem readOptions_optionEntries {options : CheckOptions} (h : options.Valid)
    (positionals : List Text) : readOptions ⟨optionEntries options, positionals⟩ = .ok options := by
  have hscreen : screenLists ⟨optionEntries options, positionals⟩ = .ok () :=
    (screenLists_iff _).mpr (h.clean positionals)
  have hports : ((⟨optionEntries options, positionals⟩ : Parsed CliOption).values .denyPort).mapM
      parsePort = .ok options.denyPorts := by
    rw [values_optionEntries]
    exact mapM_parsePort h.denyPorts
  have hfailOn : (⟨optionEntries options, positionals⟩ : Parsed CliOption).last .failOn
      = some (severityName options.failOn) := by
    rw [Parsed.last, values_optionEntries]
    rfl
  simp only [readOptions, hfailOn, Option.getD_some, severityOf_severityName, hscreen, hports, bind,
    Except.bind]
  rw [checkOptions_optionEntries]
  rfl

theorem givenBy_fits (cli : ParsedCli) : ∀ entry ∈ (givenBy cli).options,
    FitsConfig OPTIONS entry := by
  cases cli with
  | help => exact flagEntry_fits (by decide) true
  | version => exact flagEntry_fits (by decide) true
  | check urls stdin options => exact optionEntries_fit options
  | batch file options => exact optionEntries_fit options

theorem parseCli_renderCli (cli : ParsedCli) : parseCli (renderCli cli) = readParsed (givenBy cli) := by
  rw [parseCli, renderCli, parseArgs_renderArgs (givenBy_fits cli)]

/-- A valid invocation is read back. -/
theorem parseCli_renderCli_of_valid {cli : ParsedCli} (h : cli.Valid) :
    parseCli (renderCli cli) = .ok cli := by
  rw [parseCli_renderCli]
  cases cli with
  | help => rfl
  | version => rfl
  | check urls stdin options =>
      obtain ⟨hoptions, hstdin, hurls⟩ := h
      obtain ⟨hhelp, hversion⟩ := given_optionEntries options (text "check" :: urls)
      have hcheck : text "check" ≠ text "batch" := by decide
      simp only [readParsed, givenBy, hhelp, hversion, readOptions_optionEntries hoptions, bind,
        Except.bind, readCommand, if_neg hcheck]
      cases stdin with
      | true => simp [hstdin rfl]
      | false => simp [(hurls rfl).1, (hurls rfl).2]
  | batch file options =>
      obtain ⟨hoptions, hfile⟩ := h
      obtain ⟨hhelp, hversion⟩ := given_optionEntries options [text "batch", file]
      simp [readParsed, givenBy, hhelp, hversion, readOptions_optionEntries hoptions, bind,
        Except.bind, readCommand, hfile]

/-! ### Accepted invocations -/

theorem readOptions_valid {parsed : Parsed CliOption} {options : CheckOptions}
    (h : readOptions parsed = .ok options) : options.Valid := by
  simp only [readOptions] at h
  cases hfailOn : severityOf ((parsed.last .failOn).getD (text "high")) with
  | none => simp [hfailOn, throw, throwThe, MonadExceptOf.throw] at h
  | some failOn =>
      simp only [hfailOn] at h
      obtain ⟨_, hscreen, hrest⟩ := bind_eq_ok.mp h
      obtain ⟨ports, hports, hoptions⟩ := bind_eq_ok.mp hrest
      cases hoptions
      have hclean := (screenLists_iff parsed).mp hscreen
      constructor
      · exact hclean .idnAllow (by decide)
      · exact hclean .denyTld (by decide)
      · exact hclean .allowTld (by decide)
      · exact hclean .denyHost (by decide)
      · exact hclean .allowHost (by decide)
      · exact hclean .allowScheme (by decide)
      · exact hclean .denyScheme (by decide)
      · intro port hport
        obtain ⟨value, -, hvalue⟩ := mem_of_mapM (mapM_eq_ok_iff.mp hports) port hport
        exact parsePort_le hvalue

theorem readCommand_valid {command : Text} {rest : List Text} {options : CheckOptions}
    {cli : ParsedCli} (hoptions : options.Valid) (h : readCommand command rest options = .ok cli) :
    cli.Valid := by
  simp only [readCommand] at h
  split at h
  · split at h
    · cases h
    · split at h
      · cases h
      · rename_i file hfile
        cases h
        exact ⟨hoptions, hfile⟩
    · cases h
  · cases h
    refine ⟨hoptions, ?_, ?_⟩
    · intro hstdin
      exact if_pos hstdin
    · intro hstdin
      have hrest : ¬ (rest = [] ∨ rest = [text "-"]) := by simpa using hstdin
      rw [if_neg (by simpa using hrest)]
      exact not_or.mp hrest

/-- Whatever the parser accepts is valid. -/
theorem parseCli_valid {argv : List Text} {cli : ParsedCli} (h : parseCli argv = .ok cli) :
    cli.Valid := by
  unfold parseCli at h
  cases hparsed : ParseArgs.parseArgs OPTIONS argv with
  | error error => simp [hparsed] at h
  | ok parsed =>
      simp only [hparsed, readParsed] at h
      split at h
      · cases h
        trivial
      · split at h
        · cases h
          trivial
        · split at h
          · cases h
          · split at h
            · cases h
            · obtain ⟨options, hoptions, hcommand⟩ := bind_eq_ok.mp h
              exact readCommand_valid (readOptions_valid hoptions) hcommand

/-- The arguments are accepted exactly for valid invocations, and each of these has arguments that
are read back as it. -/
theorem parse_cli_round_trip :
    (∀ argv cli, parseCli argv = .ok cli → ParsedCli.Valid cli ∧ parseCli (renderCli cli) = .ok cli) ∧
      ∀ cli, parseCli (renderCli cli) = .ok cli ↔ ParsedCli.Valid cli :=
  ⟨fun _ _ h => ⟨parseCli_valid h, parseCli_renderCli_of_valid (parseCli_valid h)⟩,
    fun _ => ⟨parseCli_valid, parseCli_renderCli_of_valid⟩⟩

end Cli

end Linklint
