import Linklint.Js.Host
import Mathlib.Data.List.Sort

/-!
# Option intake

The options argument at the runtime boundary. A key the program does not
recognize is reported as `options:<key>`; an argument that cannot be read at all
is reported as `options` and replaced by `{}`.
-/

namespace Linklint

/-- `Object.keys(SYNC_OPTION_KEYS)` -/
def SYNC_OPTION_KEYS : List Text :=
  ["maxDecodeDepth", "agentMode", "idnPolicy", "idnAllowlist", "suppressReasons", "denyTlds",
    "allowTlds", "denyHosts", "allowHosts", "allowSchemes", "denySchemes", "denyPorts",
    "denyNonStandardPorts"].map text

def ASYNC_ONLY_OPTION_KEYS : List Text := ["enrichers", "signal", "cache", "governor"].map text

def RECOGNIZED_OPTION_KEYS : List Text := SYNC_OPTION_KEYS ++ ASYNC_ONLY_OPTION_KEYS

def UNUSABLE_OPTIONS_TOKEN : Text := text "options"
def OPTION_KEY_TOKEN_PREFIX : Text := text "options"
def MAX_ECHOED_KEY_LENGTH : Nat := 64

/-- A token of the `<namespace>:<id>` grammar. -/
def namespacedToken (space id : Text) : Text := space ++ unit ':' :: id

theorem colon_mem_namespacedToken (space id : Text) : unit ':' ∈ namespacedToken space id := by
  simp [namespacedToken]

/-- Tokens of two namespaces are never the same. -/
theorem namespacedToken_inj {space space' id id' : Text} (hs : unit ':' ∉ space)
    (hs' : unit ':' ∉ space') :
    namespacedToken space id = namespacedToken space' id' ↔ space = space' ∧ id = id' := by
  constructor
  · intro h
    rcases List.append_eq_append_iff.mp h with ⟨mid, hspace, hid⟩ | ⟨mid, hspace, hid⟩
    · cases mid with
      | nil => simpa [eq_comm] using And.intro hspace hid
      | cons u mid =>
          rw [List.cons_append, List.cons.injEq] at hid
          exact absurd (hspace ▸ List.mem_append_right _ (hid.1 ▸ List.mem_cons_self ..)) hs'
    · cases mid with
      | nil => simpa [eq_comm] using And.intro hspace hid
      | cons u mid =>
          rw [List.cons_append, List.cons.injEq] at hid
          exact absurd (hspace ▸ List.mem_append_right _ (hid.1 ▸ List.mem_cons_self ..)) hs
  · rintro ⟨rfl, rfl⟩
    rfl

/-- Not in `UNSAFE_KEY_CHARS`. -/
def isSafeKeyUnit (u : CodeUnit) : Bool :=
  isAsciiLetter u || isDigit u || u == unit '_' || u == unit '$' || u == unit '.' || u == unit '-'

/-- One dropped key as a bounded, delimiter-safe token. -/
def optionKeyToken (key : Text) : Text :=
  let safe := key.map fun u => if isSafeKeyUnit u then u else unit '_'
  let bounded :=
    if safe.length > MAX_ECHOED_KEY_LENGTH then safe.take MAX_ECHOED_KEY_LENGTH ++ [unit '_']
    else safe
  namespacedToken OPTION_KEY_TOKEN_PREFIX bounded

structure OptionIntake where
  options : HostVal
  skipped : List Text

/-- The key was supplied and not applied. -/
def isDroppedKey (options : HostVal) (key : Text) : Bool :=
  !RECOGNIZED_OPTION_KEYS.contains key &&
    match options.read .intake key with
    | .ok value => !value.isUndefined
    | .error _ => true

def intakeOptions (options : HostVal) : OptionIntake :=
  if options.isObject then
    match options.ownKeys with
    | .error _ => { options := HostVal.empty, skipped := [UNUSABLE_OPTIONS_TOKEN] }
    | .ok keys =>
        let dropped := (keys.filter (isDroppedKey options)).insertionSort (· ≤ ·)
        { options := options, skipped := (dropped.map optionKeyToken).eraseDups }
  else { options := HostVal.empty, skipped := [UNUSABLE_OPTIONS_TOKEN] }

/-- Nothing of the argument could be read, so `{}` stands in for it. -/
def OptionsUnusable (options : HostVal) : Prop :=
  options.isObject = false ∨ options.ownKeys = .error .thrown

instance (options : HostVal) : Decidable (options.ownKeys = .error .thrown) :=
  match options.ownKeys with
  | .error .thrown => isTrue rfl
  | .ok _ => isFalse (by simp)

instance (options : HostVal) : Decidable (OptionsUnusable options) :=
  inferInstanceAs (Decidable (_ ∨ _))

theorem intakeOptions_of_unusable {options : HostVal} (h : OptionsUnusable options) :
    intakeOptions options = ⟨HostVal.empty, [UNUSABLE_OPTIONS_TOKEN]⟩ := by
  unfold intakeOptions
  rcases h with h | h
  · simp [h]
  · split
    · rw [h]
    · rfl

/-- A usable argument is passed on unchanged. -/
theorem intakeOptions_options {options : HostVal} (h : ¬ OptionsUnusable options) :
    (intakeOptions options).options = options := by
  obtain ⟨hobj, hkeys⟩ := not_or.mp h
  unfold intakeOptions
  rw [if_pos (by simpa using hobj)]
  cases hk : options.ownKeys with
  | error e => exact absurd hk hkeys
  | ok keys => rfl

/-- Every intake token is the bare `options` or carries the `options:` prefix. -/
theorem mem_intake_skipped {options : HostVal} {token : Text}
    (h : token ∈ (intakeOptions options).skipped) :
    token = UNUSABLE_OPTIONS_TOKEN ∨ ∃ id, token = namespacedToken OPTION_KEY_TOKEN_PREFIX id := by
  by_cases hun : OptionsUnusable options
  · rw [intakeOptions_of_unusable hun] at h
    exact Or.inl (List.mem_singleton.mp h)
  · right
    obtain ⟨hobj, hkeys⟩ := not_or.mp hun
    unfold intakeOptions at h
    rw [if_pos (by simpa using hobj)] at h
    cases hk : options.ownKeys with
    | error e => exact absurd hk hkeys
    | ok keys =>
        simp only [hk, List.mem_eraseDups, List.mem_map] at h
        obtain ⟨key, -, rfl⟩ := h
        exact ⟨_, rfl⟩

end Linklint
