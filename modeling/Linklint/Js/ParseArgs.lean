import Linklint.Js.Host

/-!
# Command line arguments

`parseArgs` of `node:util`, strict and with positionals, for options that have
no short name. The arguments are cut into tokens first; the first token that
breaks a rule is the error.
-/

namespace Linklint

/-- The options of a program: their long names, and which of them take a value. -/
structure OptionsConfig (O : Type) where
  all : List O
  name : O → Text
  takesValue : O → Bool
  mem_all : ∀ o, o ∈ all
  name_injective : Function.Injective name
  name_ne_nil : ∀ o, name o ≠ []
  name_plain : ∀ o, unit '=' ∉ name o

namespace ParseArgs

inductive Token where
  | option (name : Text) (value : Option Text) (inlineValue : Bool)
  | positional (value : Text)

inductive Error where
  | unknownOption (name : Text)
  | argumentMissing (name : Text)
  | argumentAmbiguous (name : Text)
  | takesNoArgument (name : Text)
deriving DecidableEq

/-- `arg.length > 2 && arg.startsWith("--")` -/
def isLongOption (arg : Text) : Bool := 2 < arg.length && Text.startsWith arg (text "--")

/-- `arg.length > 1 && arg[0] === "-"` -/
def isOptionLikeValue (arg : Text) : Bool := 1 < arg.length && arg.head? == some (unit '-')

/-- What was given: the options with their values, and the positionals. -/
structure Parsed (O : Type) where
  options : List (O × Option Text)
  positionals : List Text

section
variable {O : Type} (config : OptionsConfig O)

def find (name : Text) : Option O := config.all.find? fun o => config.name o == name

def wantsValue (name : Text) : Bool := (find config name).any config.takesValue

def argsToTokens : List Text → List Token
  | [] => []
  | arg :: rest =>
      if arg = text "--" then rest.map .positional
      else if isLongOption arg then
        if (arg.drop 3).contains (unit '=') then
          let cut := Text.cutFirst (unit '=') (arg.drop 2)
          .option cut.1 cut.2 true :: argsToTokens rest
        else if wantsValue config (arg.drop 2) then
          match rest with
          | [] => [.option (arg.drop 2) none false]
          | value :: rest => .option (arg.drop 2) (some value) false :: argsToTokens rest
        else .option (arg.drop 2) none false :: argsToTokens rest
      -- a short option, alone or the first of a group: none has a name of one letter
      else if isOptionLikeValue arg then .option ((arg.drop 1).take 1) none false :: argsToTokens rest
      else .positional arg :: argsToTokens rest

/-- `checkOptionUsage` and `checkOptionLikeValue` -/
def storeToken (parsed : Parsed O) : Token → Except Error (Parsed O)
  | .positional value => .ok { parsed with positionals := parsed.positionals ++ [value] }
  | .option name value inlineValue =>
      match find config name with
      | none => .error (.unknownOption name)
      | some o =>
          if config.takesValue o then
            match value with
            | none => .error (.argumentMissing name)
            | some v =>
                if !inlineValue && isOptionLikeValue v then .error (.argumentAmbiguous name)
                else .ok { parsed with options := parsed.options ++ [(o, some v)] }
          else if value.isSome then .error (.takesNoArgument name)
          else .ok { parsed with options := parsed.options ++ [(o, none)] }

def storeTokens (parsed : Parsed O) : List Token → Except Error (Parsed O)
  | [] => .ok parsed
  | token :: rest => do storeTokens (← storeToken config parsed token) rest

def parseArgs (args : List Text) : Except Error (Parsed O) :=
  storeTokens config ⟨[], []⟩ (argsToTokens config args)

end

/-! ### Reading what was given -/

section
variable {O : Type} [DecidableEq O]

/-- `values[name]` of a boolean option -/
def Parsed.given (parsed : Parsed O) (o : O) : Bool := parsed.options.any fun entry => entry.1 = o

/-- `values[name]` of an option that may be repeated, `[]` when it was not given -/
def Parsed.values (parsed : Parsed O) (o : O) : List Text :=
  parsed.options.filterMap fun entry => if entry.1 = o then entry.2 else none

/-- `values[name]` of an option that keeps its last value -/
def Parsed.last (parsed : Parsed O) (o : O) : Option Text := (parsed.values o).getLast?

end

/-! ### Writing arguments -/

section
variable {O : Type} (config : OptionsConfig O)

/-- An option with the value it takes. -/
def FitsConfig (entry : O × Option Text) : Prop := entry.2.isSome = config.takesValue entry.1

/-- `--name` or `--name=value` -/
def optionArg (entry : O × Option Text) : Text :=
  match entry.2 with
  | none => text "--" ++ config.name entry.1
  | some value => text "--" ++ (config.name entry.1 ++ unit '=' :: value)

/-- Arguments that say what was given. -/
def renderArgs (parsed : Parsed O) : List Text :=
  parsed.options.map (optionArg config) ++ text "--" :: parsed.positionals

variable {config}

theorem find_name (o : O) : find config (config.name o) = some o := by
  cases hfound : find config (config.name o) with
  | none =>
      have hnot := List.find?_eq_none.mp hfound o (config.mem_all o)
      simp at hnot
  | some o' =>
      have hname : config.name o' = config.name o := by simpa using List.find?_some hfound
      rw [config.name_injective hname]

theorem find_eq_some {name : Text} {o : O} (h : find config name = some o) : config.name o = name := by
  simpa using List.find?_some h

/-- The name of an option, written as an argument. -/
theorem longOption_name (config : OptionsConfig O) (o : O) (tail : Text) :
    text "--" ++ (config.name o ++ tail) ≠ text "--" ∧
      isLongOption (text "--" ++ (config.name o ++ tail)) = true := by
  have hname := List.length_pos_iff.mpr (config.name_ne_nil o)
  have hlength : (text "--" ++ (config.name o ++ tail)).length = 2 + (config.name o ++ tail).length := by
    rw [List.length_append]
    rfl
  have hlong : 0 < (config.name o ++ tail).length := by
    rw [List.length_append]
    omega
  constructor
  · intro h
    have hlen := congrArg List.length h
    rw [hlength, show (text "--").length = 2 from rfl] at hlen
    omega
  · simp only [isLongOption, Bool.and_eq_true, decide_eq_true_eq]
    refine ⟨by omega, ?_⟩
    rw [Text.startsWith, List.isPrefixOf_iff_prefix]
    exact List.prefix_append _ _

/-- The argument of an option becomes one token. -/
theorem argsToTokens_optionArg {entry : O × Option Text} (hfits : FitsConfig config entry)
    (rest : List Text) :
    argsToTokens config (optionArg config entry :: rest) =
      .option (config.name entry.1) entry.2 entry.2.isSome :: argsToTokens config rest := by
  obtain ⟨o, value⟩ := entry
  obtain ⟨first, name, hname⟩ := List.exists_cons_of_ne_nil (config.name_ne_nil o)
  have hplain := config.name_plain o
  cases value with
  | none =>
      obtain ⟨hne, hlong⟩ := longOption_name config o []
      rw [List.append_nil] at hne hlong
      have hcontains : ((text "--" ++ config.name o).drop 3).contains (unit '=') = false := by
        rw [hname] at hplain ⊢
        have hdropped : (text "--" ++ first :: name).drop 3 = name := rfl
        rw [hdropped]
        simpa using fun h => hplain (List.mem_cons_of_mem _ h)
      have hdrop : (text "--" ++ config.name o).drop 2 = config.name o := List.drop_left' rfl
      have hwants : wantsValue config (config.name o) = false := by
        rw [wantsValue, find_name]
        exact hfits.symm
      have harg : optionArg config (o, none) = text "--" ++ config.name o := rfl
      rw [harg, argsToTokens.eq_def]
      simp only [if_neg hne, if_pos hlong, hcontains, hdrop, hwants]
      rfl
  | some v =>
      obtain ⟨hne, hlong⟩ := longOption_name config o (unit '=' :: v)
      have hcontains : ((text "--" ++ (config.name o ++ unit '=' :: v)).drop 3).contains (unit '=')
          = true := by
        rw [hname]
        have hdropped : (text "--" ++ (first :: name ++ unit '=' :: v)).drop 3
            = name ++ unit '=' :: v := rfl
        rw [hdropped]
        simp
      have hdrop : (text "--" ++ (config.name o ++ unit '=' :: v)).drop 2
          = config.name o ++ unit '=' :: v := List.drop_left' rfl
      have harg : optionArg config (o, some v) =
          text "--" ++ (config.name o ++ unit '=' :: v) := rfl
      rw [harg, argsToTokens.eq_def]
      simp only [if_neg hne, if_pos hlong, if_pos hcontains, hdrop, cutFirst_append hplain]
      rfl

theorem storeToken_option {entry : O × Option Text} (hfits : FitsConfig config entry)
    (parsed : Parsed O) :
    storeToken config parsed (.option (config.name entry.1) entry.2 entry.2.isSome) =
      .ok { parsed with options := parsed.options ++ [entry] } := by
  obtain ⟨o, value⟩ := entry
  have hvalue : value.isSome = config.takesValue o := hfits
  cases value with
  | none => simp [storeToken, find_name, ← hvalue]
  | some v => simp [storeToken, find_name, ← hvalue]

theorem storeTokens_append {parsed parsed' : Parsed O} {before after : List Token}
    (h : storeTokens config parsed before = .ok parsed') :
    storeTokens config parsed (before ++ after) = storeTokens config parsed' after := by
  induction before generalizing parsed with
  | nil =>
      cases h
      rfl
  | cons token before ih =>
      obtain ⟨next, hnext, hrest⟩ := bind_eq_ok.mp h
      rw [List.cons_append, storeTokens, hnext]
      exact ih hrest

theorem storeTokens_positionals (parsed : Parsed O) (values : List Text) :
    storeTokens config parsed (values.map .positional) =
      .ok { parsed with positionals := parsed.positionals ++ values } := by
  induction values generalizing parsed with
  | nil => simp [storeTokens]
  | cons value values ih =>
      simp only [List.map_cons, storeTokens, storeToken, bind, Except.bind]
      rw [ih]
      simp

theorem argsToTokens_renderArgs {parsed : Parsed O}
    (hfits : ∀ entry ∈ parsed.options, FitsConfig config entry) :
    argsToTokens config (renderArgs config parsed) =
      (parsed.options.map fun entry =>
          Token.option (config.name entry.1) entry.2 entry.2.isSome)
        ++ parsed.positionals.map .positional := by
  obtain ⟨options, positionals⟩ := parsed
  unfold renderArgs
  induction options with
  | nil =>
      simp only [List.map_nil, List.nil_append]
      rw [argsToTokens.eq_def]
      exact if_pos rfl
  | cons entry options ih =>
      obtain ⟨hentry, hrest⟩ := List.forall_mem_cons.mp hfits
      simp only [List.map_cons, List.cons_append]
      rw [argsToTokens_optionArg hentry, ih hrest]

theorem storeTokens_options (parsed : Parsed O) {entries : List (O × Option Text)}
    (hfits : ∀ entry ∈ entries, FitsConfig config entry) :
    storeTokens config parsed (entries.map fun entry =>
        Token.option (config.name entry.1) entry.2 entry.2.isSome) =
      .ok { parsed with options := parsed.options ++ entries } := by
  induction entries generalizing parsed with
  | nil => simp [storeTokens]
  | cons entry entries ih =>
      obtain ⟨hentry, hrest⟩ := List.forall_mem_cons.mp hfits
      simp only [List.map_cons, storeTokens, storeToken_option hentry, bind, Except.bind]
      rw [ih _ hrest]
      simp

/-- What the arguments say is what was given. -/
theorem parseArgs_renderArgs {parsed : Parsed O}
    (hfits : ∀ entry ∈ parsed.options, FitsConfig config entry) :
    parseArgs config (renderArgs config parsed) = .ok parsed := by
  rw [parseArgs, argsToTokens_renderArgs hfits, storeTokens_append (storeTokens_options _ hfits),
    storeTokens_positionals]
  simp

theorem storeToken_fits {parsed parsed' : Parsed O} {token : Token}
    (h : storeToken config parsed token = .ok parsed') :
    parsed'.options = parsed.options ∨
      ∃ entry, FitsConfig config entry ∧ parsed'.options = parsed.options ++ [entry] := by
  cases token with
  | positional value =>
      cases h
      exact Or.inl rfl
  | option name value inlineValue =>
      simp only [storeToken] at h
      cases hfind : find config name with
      | none => simp [hfind] at h
      | some o =>
          cases hwants : config.takesValue o with
          | false =>
              cases value with
              | none =>
                  obtain rfl := by simpa [hfind, hwants] using h
                  exact Or.inr ⟨(o, none), hwants.symm, rfl⟩
              | some v => simp [hfind, hwants] at h
          | true =>
              cases value with
              | none => simp [hfind, hwants] at h
              | some v =>
                  simp only [hfind, hwants, if_true] at h
                  split at h
                  · cases h
                  · cases h
                    exact Or.inr ⟨(o, some v), hwants.symm, rfl⟩

/-- What was given, with one option before the others. -/
def Parsed.cons (entry : O × Option Text) (parsed : Parsed O) : Parsed O :=
  { parsed with options := entry :: parsed.options }

theorem storeToken_cons (entry : O × Option Text) (parsed : Parsed O) (token : Token) :
    storeToken config (parsed.cons entry) token =
      (storeToken config parsed token).map (Parsed.cons entry) := by
  cases token with
  | positional value => rfl
  | option name value inlineValue =>
      simp only [storeToken]
      cases find config name with
      | none => rfl
      | some o =>
          cases hwants : config.takesValue o with
          | false => cases value <;> simp [hwants, Parsed.cons, Except.map]
          | true =>
              cases value with
              | none => simp [hwants, Except.map]
              | some v =>
                  simp only [hwants, if_true]
                  split <;> simp [Except.map, Parsed.cons]

theorem storeTokens_cons (entry : O × Option Text) (parsed : Parsed O) (tokens : List Token) :
    storeTokens config (parsed.cons entry) tokens =
      (storeTokens config parsed tokens).map (Parsed.cons entry) := by
  induction tokens generalizing parsed with
  | nil => rfl
  | cons token tokens ih =>
      simp only [storeTokens, storeToken_cons]
      cases storeToken config parsed token with
      | error error => rfl
      | ok next => exact ih next

/-- An option before all other arguments is given before all others. -/
theorem parseArgs_cons {entry : O × Option Text} (hfits : FitsConfig config entry)
    (args : List Text) :
    parseArgs config (optionArg config entry :: args) =
      (parseArgs config args).map (Parsed.cons entry) := by
  rw [parseArgs, argsToTokens_optionArg hfits, storeTokens, storeToken_option hfits]
  exact storeTokens_cons entry ⟨[], []⟩ _

/-- Whatever was accepted fits the options of the program. -/
theorem storeTokens_fits {parsed parsed' : Parsed O} {tokens : List Token}
    (hfits : ∀ entry ∈ parsed.options, FitsConfig config entry)
    (h : storeTokens config parsed tokens = .ok parsed') :
    ∀ entry ∈ parsed'.options, FitsConfig config entry := by
  induction tokens generalizing parsed with
  | nil =>
      cases h
      exact hfits
  | cons token tokens ih =>
      obtain ⟨next, hnext, hrest⟩ := bind_eq_ok.mp h
      refine ih ?_ hrest
      rcases storeToken_fits hnext with hsame | ⟨entry, hentry, happend⟩
      · rw [hsame]
        exact hfits
      · rw [happend]
        intro other hother
        rcases List.mem_append.mp hother with hold | hnew
        · exact hfits other hold
        · rw [List.mem_singleton.mp hnew]
          exact hentry

end

end ParseArgs

end Linklint
