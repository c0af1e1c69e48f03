import Linklint.Parse.RawParts
import Linklint.Parse.Ipv6Forms
import Linklint.Parse.InetAton

/-!
# Lossless tokens

The raw tokens of a text concatenate to it again, and the parts of an accepted
authority write that authority, but for leading zeros of its port.
-/

namespace Linklint

/-! ### Tokens -/

/-- The text before a separator, or nothing. -/
def endedBy (part : Option Text) (separator : CodeUnit) : Text :=
  part.elim [] fun t => t ++ [separator]

def startedBy (separator : CodeUnit) (part : Option Text) : Text :=
  part.elim [] fun t => separator :: t

/-- The tokens as they were written. -/
def RawUrlTokens.written (tokens : RawUrlTokens) : Text :=
  endedBy tokens.rawScheme (unit ':') ++ tokens.authorityIntroducer ++ tokens.authority ++
    tokens.path ++ startedBy (unit '?') tokens.query ++ startedBy (unit '#') tokens.fragment

/-- Every region ends where the next one starts. -/
structure RawUrlTokens.Separated (tokens : RawUrlTokens) : Prop where
  authority : ∀ u ∈ tokens.authority, u ≠ unit '/' ∧ u ≠ unit '?' ∧ u ≠ unit '#'
  path : unit '?' ∉ tokens.path ∧ unit '#' ∉ tokens.path
  query : ∀ q, tokens.query = some q → unit '#' ∉ q

theorem cutFirst_startedBy (sep : CodeUnit) (s : Text) :
    (Text.cutFirst sep s).1 ++ startedBy sep (Text.cutFirst sep s).2 = s := by
  cases hcut : Text.cutFirst sep s with
  | mk head rest =>
      cases rest with
      | none => simp [startedBy, eq_of_cutFirst_none hcut]
      | some rest => simp [startedBy, eq_of_cutFirst hcut]

theorem mem_of_mem_cutFirst {sep u : CodeUnit} {s : Text} (h : u ∈ (Text.cutFirst sep s).1) :
    u ∈ s := List.takeWhile_subset _ h

theorem mem_of_mem_cutFirst_rest {sep u : CodeUnit} {s rest : Text}
    (h : (Text.cutFirst sep s).2 = some rest) (hu : u ∈ rest) : u ∈ s := by
  rw [eq_of_cutFirst (show Text.cutFirst sep s = ((Text.cutFirst sep s).1, some rest) by rw [← h])]
  simp [hu]

theorem splitPathQueryFragment_written (input : Text) :
    (splitPathQueryFragment input).path ++ startedBy (unit '?') (splitPathQueryFragment input).query ++
      startedBy (unit '#') (splitPathQueryFragment input).fragment = input := by
  simp only [splitPathQueryFragment, cutFirst_startedBy]

theorem splitPathQueryFragment_separated (input : Text) :
    (unit '?' ∉ (splitPathQueryFragment input).path ∧
      unit '#' ∉ (splitPathQueryFragment input).path) ∧
    ∀ q, (splitPathQueryFragment input).query = some q → unit '#' ∉ q := by
  have hhash := not_mem_cutFirst (unit '#') input
  refine ⟨⟨not_mem_cutFirst _ _, fun h => hhash (mem_of_mem_cutFirst h)⟩, fun q hq h => ?_⟩
  exact hhash (mem_of_mem_cutFirst_rest hq h)

theorem takeWhile_append_drop (p : CodeUnit → Bool) (s : Text) :
    s.takeWhile p ++ s.drop (s.takeWhile p).length = s :=
  List.prefix_iff_eq_append.mp (List.takeWhile_prefix p)

theorem eq_of_matchScheme {s name rest : Text} (h : matchScheme s = some (name, rest)) :
    s = name ++ unit ':' :: rest := by
  cases s with
  | nil => cases h
  | cons c tail =>
      rw [matchScheme] at h
      split at h
      · rename_i d rest' hdrop
        split at h
        · rename_i hcolon
          cases h
          have htake := takeWhile_append_drop isSchemeUnit tail
          rw [hdrop, hcolon.2] at htake
          rw [List.cons_append, htake]
        · cases h
      · cases h

/-- The accepted scheme, its colon and the rest are the whole text. -/
theorem splitScheme_written (s : Text) :
    endedBy ((splitScheme s).1.map Prod.fst) (unit ':') ++ (splitScheme s).2 = s := by
  rw [splitScheme]
  cases hmatch : matchScheme s with
  | none => rfl
  | some found =>
      obtain ⟨name, rest⟩ := found
      simp only
      split
      · rfl
      · simp [endedBy, eq_of_matchScheme hmatch]

theorem hostlessFileBody_written {rest introducer path : Text}
    (h : hostlessFileBody rest = some (introducer, path)) : introducer ++ path = rest := by
  rw [hostlessFileBody] at h
  split at h
  · split at h
    · simp only at h
      split at h
      · cases h
        exact List.take_append_drop ..
      · cases h
    · cases h
      rfl
  · cases h

theorem leadingAuthorityIntroducer_startsRest (rest : Text) (scheme : Option Text)
    (protocolRelative : Bool) :
    leadingAuthorityIntroducer rest scheme protocolRelative <+: rest := by
  rw [leadingAuthorityIntroducer]
  split
  · exact List.nil_prefix
  · split
    · exact List.takeWhile_prefix _
    · exact List.nil_prefix

/-- The regions the text after the scheme is cut into, whichever branch cuts it. -/
structure TokenRegions (s introducer region body : Text) : Prop where
  rest : introducer ++ (region ++ body) = (splitScheme s).2
  ends : ∀ u ∈ region, isAuthorityEnd u = false
  rawScheme : (tokenizeRawUrl s).rawScheme = (splitScheme s).1.map Prod.fst
  introduced : (tokenizeRawUrl s).authorityIntroducer = introducer
  authority : (tokenizeRawUrl s).authority = region
  path : (tokenizeRawUrl s).path = (splitPathQueryFragment body).path
  query : (tokenizeRawUrl s).query = (splitPathQueryFragment body).query
  fragment : (tokenizeRawUrl s).fragment = (splitPathQueryFragment body).fragment

theorem tokenizeRawUrl_regions (s : Text) :
    ∃ introducer region body, TokenRegions s introducer region body := by
  cases hsplit : splitScheme s with
  | mk accepted rest =>
      by_cases hopaque :
          ((accepted.map Prod.snd).any isOpaqueScheme && !startsWithSlashPair rest) = true
      · -- an opaque body
        refine ⟨[], [], rest, ?_⟩
        constructor
        · rw [hsplit]
          rfl
        · simp
        all_goals simp only [tokenizeRawUrl, hsplit, hopaque, if_true]
      · cases hhostless : (if accepted.map Prod.snd = some (text "file") then
            hostlessFileBody rest else none) with
        | some found =>
            -- a local `file:` body
            obtain ⟨introducer, path⟩ := found
            refine ⟨introducer, [], path, ?_⟩
            have hwritten : introducer ++ path = rest := by
              split at hhostless
              · exact hostlessFileBody_written hhostless
              · cases hhostless
            constructor
            · rw [hsplit]
              exact hwritten
            · simp
            all_goals
              simp only [tokenizeRawUrl, hsplit, hopaque, hhostless, Bool.false_eq_true, if_false]
        | none =>
            -- an authority, possibly empty
            let introducer := leadingAuthorityIntroducer rest (accepted.map Prod.snd)
              ((accepted.map Prod.snd).isNone && startsWithSlashPair s)
            let remainder := rest.drop introducer.length
            refine ⟨introducer, remainder.takeWhile (!isAuthorityEnd ·),
              remainder.drop (remainder.takeWhile (!isAuthorityEnd ·)).length, ?_⟩
            constructor
            · rw [takeWhile_append_drop, hsplit]
              exact List.prefix_iff_eq_append.mp (leadingAuthorityIntroducer_startsRest ..)
            · intro u hu
              simpa using List.mem_takeWhile_imp hu
            all_goals
              simp only [tokenizeRawUrl, hsplit, hopaque, hhostless, Bool.false_eq_true, if_false,
                introducer, remainder]

theorem tokenizeRawUrl_written (s : Text) : (tokenizeRawUrl s).written = s := by
  obtain ⟨introducer, region, body, h⟩ := tokenizeRawUrl_regions s
  have hbody := splitPathQueryFragment_written body
  have hscheme := splitScheme_written s
  rw [RawUrlTokens.written, h.rawScheme, h.introduced, h.authority, h.path, h.query, h.fragment]
  simp only [List.append_assoc] at hbody ⊢
  rw [hbody, h.rest, hscheme]

theorem isAuthorityEnd_eq_false {u : CodeUnit} (h : isAuthorityEnd u = false) :
    u ≠ unit '/' ∧ u ≠ unit '?' ∧ u ≠ unit '#' := by
  simpa [isAuthorityEnd, and_assoc] using h

theorem tokenizeRawUrl_separated (s : Text) : (tokenizeRawUrl s).Separated := by
  obtain ⟨introducer, region, body, h⟩ := tokenizeRawUrl_regions s
  obtain ⟨hpath, hquery⟩ := splitPathQueryFragment_separated body
  refine ⟨fun u hu => ?_, ?_, fun q hq => ?_⟩
  · exact isAuthorityEnd_eq_false (h.ends u (h.authority ▸ hu))
  · rwa [h.path]
  · exact hquery q (h.query ▸ hq)

/-! ### Hosts -/

/-- A host name: labels between dots, and at most the root dot behind them. -/
structure RegName (P : Platform) (clean : Text) : Prop where
  labels : ∃ labels, labels ≠ [] ∧ (∀ label ∈ labels, label ≠ [] ∧ unit '.' ∉ label) ∧
    (clean = Text.join [unit '.'] labels ∨ clean = Text.join [unit '.'] labels ++ [unit '.'])
  spaces : ∀ u ∈ clean, isSpace u = false
  points : ∀ cp ∈ codePoints clean,
    P.isLetterMarkNumber cp = true ∨ cp ∈ ['.', '_', '%', '-'].map Char.toNat

theorem dropTrailingDot_cases (s : Text) :
    s = s.dropTrailingDot ∨ s = s.dropTrailingDot ++ [unit '.'] := by
  rw [Text.dropTrailingDot]
  split
  · rename_i hlast
    exact Or.inr (List.dropLast_append_getLast? _ hlast).symm
  · exact Or.inl rfl

theorem regName_of_hostIsValid {P : Platform} {rawHost : Text} (h : hostIsValid P rawHost = true) :
    RegName P (stripInvisible rawHost) := by
  simp only [hostIsValid, Bool.and_eq_true, Bool.not_eq_true', List.any_eq_false,
    List.all_eq_true] at h
  obtain ⟨⟨⟨-, hlegal⟩, hpoints⟩, hlabels⟩ := h
  refine ⟨⟨(stripInvisible rawHost).dropTrailingDot.split (unit '.'), List.splitOn_ne_nil _ _,
    fun label hlabel => ⟨?_, not_mem_of_mem_split hlabel⟩, ?_⟩, fun u hu => ?_, fun cp hcp => ?_⟩
  · rintro rfl
    simp [hlabel] at hlabels
  · rw [join_split]
    exact dropTrailingDot_cases _
  · have hunit := hlegal u hu
    simp only [isIllegalHostUnit, Bool.or_eq_true, not_or] at hunit
    simpa using hunit.1.1
  · have hpoint := hpoints cp hcp
    simp only [isHostCodePoint, Bool.or_eq_true, beq_iff_eq] at hpoint
    rcases hpoint with (((hletter | rfl) | rfl) | rfl) | rfl
    · exact Or.inl hletter
    all_goals exact Or.inr (by decide)

/-! ### Authorities -/

/-- A port as it may be written. -/
def portText (zeros port : Nat) : Text := List.replicate zeros (unit '0') ++ decimalText port

/-- Digits are leading zeros before the decimal text of their value. -/
theorem eq_portText {p : Text} (hne : p ≠ []) (hdigits : ∀ u ∈ p, isDigit u = true) :
    ∃ zeros, p = portText zeros (numeralValue 10 p) := by
  induction p with
  | nil => exact absurd rfl hne
  | cons u p ih =>
      by_cases hlead : (u :: p).length > 1 ∧ (u :: p).head? = some (unit '0')
      · obtain rfl : u = unit '0' := Option.some.inj hlead.2
        have hp : p ≠ [] := by
          rintro rfl
          exact absurd hlead.1 (by decide)
        obtain ⟨zeros, hzeros⟩ := ih hp fun v hv => hdigits v (List.mem_cons_of_mem _ hv)
        refine ⟨zeros + 1, ?_⟩
        rw [numeralValue_zero_cons, portText, List.replicate_succ, List.cons_append]
        exact congrArg _ hzeros
      · exact ⟨0, (decimalText_numeralValue hne hdigits hlead).symm⟩

theorem toPort_written {p : Text} {port : Nat} (hdigits : isPortDigits p = true)
    (h : toPort p = some port) : port ≤ MAX_PORT ∧ ∃ zeros, p = portText zeros port := by
  simp only [isPortDigits, Bool.and_eq_true, bne_iff_ne, List.all_eq_true] at hdigits
  rw [toPort] at h
  split at h
  · cases h
  · rename_i hmax
    cases h
    exact ⟨Nat.not_lt.mp hmax, eq_portText hdigits.1 hdigits.2⟩

/-- A host as it is written. -/
def hostText (bracketed : Bool) (rawHost : Text) : Text :=
  if bracketed then unit '[' :: rawHost ++ [unit ']'] else rawHost

/-- A host and a port in range, written with some leading zeros. -/
structure WritesHostPort (hostport rawHost : Text) (port : Option Nat) (bracketed : Bool) : Prop where
  text : ∃ zeros, hostport =
    hostText bracketed rawHost ++ startedBy (unit ':') (port.map (portText zeros))
  range : ∀ n, port = some n → n ≤ MAX_PORT

theorem splitBracketed_written {hostport : Text} {split : HostPort}
    (hopen : hostport.head? = some (unit '[')) (h : splitBracketed hostport = some split) :
    WritesHostPort hostport split.rawHost split.port split.bracketed := by
  obtain ⟨tail, rfl⟩ : ∃ tail, hostport = unit '[' :: tail := by
    cases hostport with
    | nil => cases hopen
    | cons u tail => exact ⟨tail, congrArg (· :: tail) (Option.some.inj hopen)⟩
  rw [splitBracketed] at h
  cases hcut : Text.cutFirst (unit ']') (unit '[' :: tail) with
  | mk head rest =>
      cases rest with
      | none => simp [hcut] at h
      | some portPart =>
          have hwritten := eq_of_cutFirst hcut
          obtain ⟨rawHost, rfl⟩ : ∃ rawHost, head = unit '[' :: rawHost := by
            cases head with
            | nil => exact absurd (List.cons.inj hwritten).1 (by decide)
            | cons u rawHost => exact ⟨rawHost, by rw [(List.cons.inj hwritten).1]⟩
          simp only [hcut, List.drop_succ_cons, List.drop_zero] at h
          cases portPart with
          | nil =>
              cases h
              exact ⟨⟨0, by simpa [hostText, startedBy] using hwritten⟩, fun n hn => by cases hn⟩
          | cons u p =>
              simp only at h
              split at h
              · rename_i hport
                obtain ⟨port, htoPort, rfl⟩ := Option.map_eq_some_iff.mp h
                obtain ⟨hmax, zeros, hzeros⟩ := toPort_written hport.2 htoPort
                refine ⟨⟨zeros, ?_⟩, fun n hn => Option.some.inj hn ▸ hmax⟩
                rw [hwritten, hport.1, hzeros]
                simp [hostText, startedBy]
              · cases h

theorem splitUnbracketed_written {hostport : Text} {split : HostPort}
    (h : splitUnbracketed hostport = some split) :
    WritesHostPort hostport split.rawHost split.port split.bracketed := by
  rw [splitUnbracketed] at h
  have hwhole : WritesHostPort hostport hostport none false :=
    ⟨⟨0, by simp [hostText, startedBy]⟩, fun n hn => by cases hn⟩
  cases hcut : Text.cutLast (unit ':') hostport with
  | mk head tail =>
      cases head with
      | none =>
          rw [hcut] at h
          cases h
          exact hwhole
      | some rawHost =>
          simp only [hcut] at h
          split at h
          · rename_i hport
            obtain ⟨port, htoPort, rfl⟩ := Option.map_eq_some_iff.mp h
            obtain ⟨hmax, zeros, hzeros⟩ := toPort_written hport htoPort
            refine ⟨⟨zeros, ?_⟩, fun n hn => Option.some.inj hn ▸ hmax⟩
            rw [eq_of_cutLast hcut, hzeros]
            simp [hostText, startedBy]
          · cases h
            exact hwhole

theorem splitHostPort_written {hostport : Text} {split : HostPort}
    (h : splitHostPort hostport = some split) :
    WritesHostPort hostport split.rawHost split.port split.bracketed := by
  rw [splitHostPort] at h
  split at h
  · rename_i hopen
    exact splitBracketed_written hopen h
  · exact splitUnbracketed_written h

/-- The parts of an accepted authority. -/
structure ReadsAuthority (P : Platform) (tokens : RawUrlTokens) (parts : RawParts) : Prop where
  /-- `userinfo@host:port` is the authority -/
  written : ∃ bracketed zeros, tokens.authority =
    endedBy parts.userinfo (unit '@') ++ hostText bracketed parts.rawHost ++
      startedBy (unit ':') (parts.port.map (portText zeros)) ∧
    (bracketed = true → ∃ groups, Rfc4291Address parts.rawHost groups) ∧
    (bracketed = false → RegName P (stripInvisible parts.rawHost))
  port : ∀ n, parts.port = some n → n ≤ MAX_PORT
  others : parts.scheme = tokens.scheme ∧ parts.path = tokens.path ∧
    parts.query = tokens.query ∧ parts.fragment = tokens.fragment

theorem readsAuthority_of_splitRawParts {P : Platform} {tokens : RawUrlTokens} {split : SplitParts}
    (hnotOpaque : tokens.isOpaque = false) (hauthority : tokens.authority ≠ [])
    (h : splitRawParts P tokens = some split) : ReadsAuthority P tokens split.parts := by
  rw [splitRawParts, if_neg (by simp [hnotOpaque]), if_neg (by simp [hauthority])] at h
  split at h
  · cases h
  · cases hat : Text.cutLast (unit '@') tokens.authority with
    | mk userinfo hostport =>
        simp only [hat] at h
        obtain ⟨hostPort, hsplit, hrest⟩ := Option.bind_eq_some_iff.mp h
        have hwrites := splitHostPort_written hsplit
        obtain ⟨zeros, htext⟩ := hwrites.text
        have hauthorityText : tokens.authority = endedBy userinfo (unit '@') ++ hostport := by
          cases userinfo with
          | none => exact eq_of_cutLast_none hat
          | some userinfo => simpa [endedBy] using eq_of_cutLast hat
        change (if (if hostPort.bracketed = true then (analyzeIpv6 hostPort.rawHost).isSome
          else hostIsValid P hostPort.rawHost) = true then some _ else none) = some split at hrest
        have hvalid : (if hostPort.bracketed = true then (analyzeIpv6 hostPort.rawHost).isSome
            else hostIsValid P hostPort.rawHost) = true := by
          by_contra hinvalid
          rw [if_neg hinvalid] at hrest
          cases hrest
        rw [if_pos hvalid] at hrest
        cases hrest
        refine ⟨⟨hostPort.bracketed, zeros, ?_, fun hbracketed => ?_, fun hbracketed => ?_⟩,
          hwrites.range, rfl, rfl, rfl, rfl⟩
        · rw [hauthorityText, htext, List.append_assoc]
        · rw [hbracketed] at hvalid
          exact analyzeIpv6_isSome_iff.mp hvalid
        · rw [hbracketed] at hvalid
          exact regName_of_hostIsValid hvalid

/-- Tokenizing and parsing a text loses nothing of it. -/
structure Lossless (P : Platform) (s : Text) : Prop where
  written : (tokenizeRawUrl s).written = s
  separated : (tokenizeRawUrl s).Separated
  authority : ∀ parts, parseRawParts P (tokenizeRawUrl s) = some parts →
    (tokenizeRawUrl s).isOpaque = false → (tokenizeRawUrl s).authority ≠ [] →
    ReadsAuthority P (tokenizeRawUrl s) parts

theorem lossless (P : Platform) (s : Text) : Lossless P s := by
  refine ⟨tokenizeRawUrl_written s, tokenizeRawUrl_separated s, ?_⟩
  intro parts hparts hopaque hauthority
  rw [parseRawParts] at hparts
  split at hparts
  · cases hparts
  · rename_i split hsplit
    split at hparts
    · cases hparts
    · cases hparts
      exact readsAuthority_of_splitRawParts hopaque hauthority hsplit

end Linklint
