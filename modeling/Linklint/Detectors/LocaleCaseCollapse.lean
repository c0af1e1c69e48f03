import Linklint.Data.Brands
import Linklint.Parse.NumericHost
import Linklint.Parse.StrictQuads
import Linklint.Policy.Axes

/-!
# Hosts that a Turkish lowercase turns into another name

The detector lowercases the host as a Turkish locale does and compares the last
labels of the result with the watchlist, as many as the registrable domain has.
With a root dot the last label is the empty one, and no brand is ever reached.
-/

namespace Linklint

def isPureAscii (s : Text) : Bool := s.all fun u => decide (u.toNat ≤ 0x7F)

/-- The `n` labels at the end of a name: `s.split(".").slice(-n).join(".")`. -/
def lastLabels (n : Nat) (s : Text) : Text :=
  let labels := s.split (unit '.')
  Text.join [unit '.'] (labels.drop (labels.length - n))

section
variable (P : Platform)

/-- The tailored lowercase: `I` with a combining dot above and `İ` both give a plain `i`. -/
def turkishLowercase : Text → Text
  | [] => []
  | u :: rest =>
      if u = unit 'I' then
        let dotless := unit 'ı' :: turkishLowercase rest
        match rest with
        | [] => dotless
        | v :: rest' => if v = 0x307 then unit 'i' :: turkishLowercase rest' else dotless
      else if u = unit 'İ' then unit 'i' :: turkishLowercase rest
      else P.toLowerCase [u] ++ turkishLowercase rest

/-- `toAscii(host)`; the processor answers `null` for a host it cannot convert. -/
def toAscii (tr46ToAscii : Text → Except Thrown (Option Text)) (host : Text) : Text :=
  match tr46ToAscii host with
  | .ok (some ace) => ace
  | _ => host

def rdLabelCount (ctx : InspectionContext) : Nat :=
  match ctx.registrableDomain with
  | some domain => (domain.split (unit '.')).length
  | none => 0

/-- `collapsedRd` -/
def collapsedRegistrableDomain (ctx : InspectionContext) : Text :=
  let collapsed := turkishLowercase P ctx.host
  if rdLabelCount ctx > 0 then lastLabels (rdLabelCount ctx) collapsed else collapsed

def localeCaseCollapse (tr46ToAscii : Text → Except Thrown (Option Text))
    (ctx : InspectionContext) : List CollectedFinding :=
  if ctx.isIp then []
  else if ctx.host = [] ∨ isPureAscii ctx.host then []
  else
    let collapsed := turkishLowercase P ctx.host
    if !isPureAscii collapsed then []
    else
      let resolved := toAscii tr46ToAscii ctx.host
      if collapsed = resolved then []
      else
        let collapsedRd := collapsedRegistrableDomain P ctx
        if isExactBrandDomain collapsedRd then
          [{ code := .brandLocaleCollapse,
             detail := text "registrable domain '" ++ ctx.registrableDomain.getD (text "null")
               ++ text "' collapses to exactly the brand domain '" ++ collapsedRd
               ++ text "' under a Turkish/Azeri lowercase, while the URL Standard resolves it to '"
               ++ resolved ++ text "' — a validator running under a Turkish locale would "
               ++ text "approve it as the brand and the request would still reach a different domain" }]
        else
          [{ code := .localeCaseAmbiguity,
             detail := text "host '" ++ ctx.host ++ text "' collapses to the pure-ASCII domain '"
               ++ collapsed ++ text "' under a Turkish/Azeri lowercase, but resolves to '" ++ resolved
               ++ text "' under UTS-46 — a component that case-normalizes with an ambient locale "
               ++ text "reads a different domain than the one the request reaches" }]

/-! ### The tailored lowercase -/

theorem turkishLowercase_absorbed (rest : Text) :
    turkishLowercase P (unit 'I' :: 0x307 :: rest) = unit 'i' :: turkishLowercase P rest := by
  rw [turkishLowercase.eq_def]
  simp

theorem turkishLowercase_dotless {rest : Text} (h : rest.head? ≠ some 0x307) :
    turkishLowercase P (unit 'I' :: rest) = unit 'ı' :: turkishLowercase P rest := by
  rw [turkishLowercase.eq_def]
  cases rest with
  | nil => simp
  | cons v rest =>
      have hv : v ≠ 0x307 := by simpa using h
      simp [hv]

theorem turkishLowercase_dotted (rest : Text) :
    turkishLowercase P (unit 'İ' :: rest) = unit 'i' :: turkishLowercase P rest := by
  have hne : unit 'İ' ≠ unit 'I' := by decide
  rw [turkishLowercase.eq_def]
  simp only [if_neg hne, if_true]

theorem turkishLowercase_other {u : CodeUnit} (hplain : u ≠ unit 'I') (hdotted : u ≠ unit 'İ')
    (rest : Text) :
    turkishLowercase P (u :: rest) = P.toLowerCase [u] ++ turkishLowercase P rest := by
  rw [turkishLowercase.eq_def]
  simp only [if_neg hplain, if_neg hdotted]

/-- One step of the loop: a dotted pair, a lone `I`, `İ`, or any other unit. -/
@[elab_as_elim]
theorem turkish_induction {motive : Text → Prop} (nil : motive [])
    (absorbed : ∀ rest, motive rest → motive (unit 'I' :: 0x307 :: rest))
    (dotless : ∀ rest, rest.head? ≠ some 0x307 → motive rest → motive (unit 'I' :: rest))
    (dotted : ∀ rest, motive rest → motive (unit 'İ' :: rest))
    (other : ∀ u rest, u ≠ unit 'I' → u ≠ unit 'İ' → motive rest → motive (u :: rest))
    (s : Text) : motive s := by
  induction h : s.length using Nat.strong_induction_on generalizing s with
  | _ n ih =>
      subst h
      match s with
      | [] => exact nil
      | u :: rest =>
          by_cases hplain : u = unit 'I'
          · subst hplain
            by_cases hmark : rest.head? = some 0x307
            · obtain ⟨more, rfl⟩ : ∃ more, rest = 0x307 :: more := by
                cases rest with
                | nil => cases hmark
                | cons v more =>
                    cases hmark
                    exact ⟨more, rfl⟩
              apply absorbed
              apply ih _ _ more rfl
              simp only [List.length_cons]
              omega
            · exact dotless rest hmark (ih _ (Nat.lt_succ_self _) rest rfl)
          · by_cases hdotted : u = unit 'İ'
            · subst hdotted
              exact dotted rest (ih _ (Nat.lt_succ_self _) rest rfl)
            · exact other u rest hplain hdotted (ih _ (Nat.lt_succ_self _) rest rfl)

theorem toLowerCase_dot : P.toLowerCase [unit '.'] = [unit '.'] := by
  have hascii : ∀ u ∈ [unit '.'], u.toNat < 128 := by
    intro u hu
    rw [List.mem_singleton.mp hu]
    decide
  rw [P.toLowerCase_ascii _ hascii]
  decide

variable {P}

/-- A label is lowercased on its own: a dot is no combining mark. -/
theorem turkishLowercase_append_dot (label rest : Text) :
    turkishLowercase P (label ++ unit '.' :: rest)
      = turkishLowercase P label ++ unit '.' :: turkishLowercase P rest := by
  have hplain : unit '.' ≠ unit 'I' := by decide
  have hdotted : unit '.' ≠ unit 'İ' := by decide
  induction label using turkish_induction with
  | nil =>
      rw [List.nil_append, turkishLowercase_other P hplain hdotted, toLowerCase_dot,
        turkishLowercase]
      rfl
  | absorbed more ih =>
      rw [List.cons_append, List.cons_append, turkishLowercase_absorbed, turkishLowercase_absorbed,
        ih, List.cons_append]
  | dotless more hmark ih =>
      have hnext : (more ++ unit '.' :: rest).head? ≠ some 0x307 := by
        cases more with
        | nil =>
            rw [List.nil_append, List.head?_cons]
            decide
        | cons v more => simpa using hmark
      rw [List.cons_append, turkishLowercase_dotless P hnext, turkishLowercase_dotless P hmark, ih,
        List.cons_append]
  | dotted more ih =>
      rw [List.cons_append, turkishLowercase_dotted, turkishLowercase_dotted, ih, List.cons_append]
  | other u more hu hu' ih =>
      rw [List.cons_append, turkishLowercase_other P hu hu', turkishLowercase_other P hu hu', ih,
        List.append_assoc]

/-- Lowercasing leaves something of every unit and makes no dots. -/
def LowersUnits (P : Platform) : Prop :=
  ∀ u, u ≠ unit '.' → P.toLowerCase [u] ≠ [] ∧ unit '.' ∉ P.toLowerCase [u]

theorem turkishLowercase_label (hlower : LowersUnits P) {label : Text} (h : unit '.' ∉ label) :
    unit '.' ∉ turkishLowercase P label ∧ (label ≠ [] → turkishLowercase P label ≠ []) := by
  have hsmall : unit '.' ≠ unit 'i' ∧ unit '.' ≠ unit 'ı' := by decide
  induction label using turkish_induction with
  | nil => exact ⟨by simp [turkishLowercase], fun hne => absurd rfl hne⟩
  | absorbed more ih =>
      rw [turkishLowercase_absorbed]
      rw [List.mem_cons, List.mem_cons, not_or, not_or] at h
      refine ⟨?_, fun _ => List.cons_ne_nil _ _⟩
      rw [List.mem_cons, not_or]
      exact ⟨hsmall.1, (ih h.2.2).1⟩
  | dotless more hmark ih =>
      rw [turkishLowercase_dotless P hmark]
      rw [List.mem_cons, not_or] at h
      refine ⟨?_, fun _ => List.cons_ne_nil _ _⟩
      rw [List.mem_cons, not_or]
      exact ⟨hsmall.2, (ih h.2).1⟩
  | dotted more ih =>
      rw [turkishLowercase_dotted]
      rw [List.mem_cons, not_or] at h
      refine ⟨?_, fun _ => List.cons_ne_nil _ _⟩
      rw [List.mem_cons, not_or]
      exact ⟨hsmall.1, (ih h.2).1⟩
  | other u more hplain hdotted ih =>
      rw [turkishLowercase_other P hplain hdotted]
      rw [List.mem_cons, not_or] at h
      obtain ⟨hne, hfree⟩ := hlower u (Ne.symm h.1)
      refine ⟨?_, fun _ => List.append_ne_nil_of_left_ne_nil hne _⟩
      rw [List.mem_append, not_or]
      exact ⟨hfree, (ih h.2).1⟩

/-- The labels of a lowercased name are the lowercased labels. -/
theorem split_turkishLowercase (hlower : LowersUnits P) (s : Text) :
    (turkishLowercase P s).split (unit '.') = (s.split (unit '.')).map (turkishLowercase P) := by
  induction h : s.length using Nat.strong_induction_on generalizing s with
  | _ n ih =>
      subst h
      by_cases hdot : unit '.' ∈ s
      · obtain ⟨label, rest, rfl, hlabel⟩ := List.eq_append_cons_of_mem hdot
        have hrest := ih rest.length (by simp only [List.length_append, List.length_cons]; omega)
          rest rfl
        rw [Text.split, Text.split] at hrest ⊢
        rw [turkishLowercase_append_dot, List.splitOn_append_cons_self, hrest,
          List.splitOn_append_cons_self, List.map_append, List.splitOn_eq_singleton hlabel,
          List.splitOn_eq_singleton (turkishLowercase_label hlower hlabel).1]
        rfl
      · rw [Text.split, Text.split, List.splitOn_eq_singleton hdot,
          List.splitOn_eq_singleton (turkishLowercase_label hlower hdot).1]
        rfl

theorem join_dot_concat {labels : List Text} (h : labels ≠ []) (last : Text) :
    Text.join [unit '.'] (labels ++ [last]) = Text.join [unit '.'] labels ++ unit '.' :: last := by
  induction labels with
  | nil => exact absurd rfl h
  | cons label labels ih =>
      by_cases hrest : labels = []
      · subst hrest
        simp [Text.join, List.intercalate_cons_cons]
      · rw [List.cons_append, join_dot_cons label (by simp), join_dot_cons label hrest, ih hrest,
          List.append_assoc, List.cons_append]

theorem turkishLowercase_join (labels : List Text) :
    turkishLowercase P (Text.join [unit '.'] labels)
      = Text.join [unit '.'] (labels.map (turkishLowercase P)) := by
  induction labels with
  | nil => rfl
  | cons label labels ih =>
      by_cases h : labels = []
      · subst h
        simp [Text.join]
      · rw [join_dot_cons label h, turkishLowercase_append_dot, ih, List.map_cons,
          join_dot_cons _ (by simpa using h)]

/-- The last labels of the lowercased name are the lowercased last labels. -/
theorem lastLabels_turkishLowercase (hlower : LowersUnits P) (n : Nat) (s : Text) :
    lastLabels n (turkishLowercase P s) = turkishLowercase P (lastLabels n s) := by
  rw [lastLabels, lastLabels, turkishLowercase_join, split_turkishLowercase hlower,
    List.length_map, List.map_drop]

/-! ### The root dot -/

/-- Behind a root dot the last label is empty. -/
theorem lastLabels_root_dot {n : Nat} (hn : 0 < n) (s : Text) :
    lastLabels n (s ++ [unit '.']) = [] ∨
      (lastLabels n (s ++ [unit '.'])).getLast? = some (unit '.') := by
  have hlength : (s.split (unit '.')).length + 1 - n ≤ (s.split (unit '.')).length := by omega
  rw [lastLabels, NumericHost.split_root_dot]
  simp only [List.length_append, List.length_singleton]
  rw [List.drop_append_of_le_length hlength]
  by_cases hlabels : (s.split (unit '.')).drop ((s.split (unit '.')).length + 1 - n) = []
  · rw [hlabels]
    exact Or.inl rfl
  · rw [join_dot_concat hlabels]
    exact Or.inr (by simp)

/-- Without one it is not. -/
theorem split_last {s : Text} (hs : s ≠ []) (hroot : s.getLast? ≠ some (unit '.')) :
    ∃ init last, s.split (unit '.') = init ++ [last] ∧ last ≠ [] ∧ unit '.' ∉ last := by
  by_cases hdot : unit '.' ∈ s
  · obtain ⟨head, last, rfl, hlast⟩ := exists_last_split hdot
    refine ⟨head.split (unit '.'), last, ?_, ?_, hlast⟩
    · rw [Text.split, List.splitOn_append_cons_self, List.splitOn_eq_singleton hlast, Text.split]
    · rintro rfl
      simp at hroot
  · exact ⟨[], s, by rw [Text.split, List.splitOn_eq_singleton hdot]; rfl, hs, hdot⟩

theorem turkishLowercase_lastLabels (hlower : LowersUnits P) {n : Nat} (hn : 0 < n) {s : Text}
    (hs : s ≠ []) (hroot : s.getLast? ≠ some (unit '.')) :
    turkishLowercase P (lastLabels n s) ≠ [] ∧
      (turkishLowercase P (lastLabels n s)).getLast? ≠ some (unit '.') := by
  obtain ⟨init, last, hsplit, hlast, hfree⟩ := split_last hs hroot
  obtain ⟨hfree', hlast'⟩ := turkishLowercase_label hlower hfree
  have hends : ∃ front, turkishLowercase P (lastLabels n s) = front ++ turkishLowercase P last := by
    have hlength : init.length + 1 - n ≤ init.length := by omega
    rw [lastLabels, hsplit]
    simp only [List.length_append, List.length_singleton]
    rw [List.drop_append_of_le_length hlength, turkishLowercase_join, List.map_append]
    by_cases hinit : (init.drop (init.length + 1 - n)).map (turkishLowercase P) = []
    · rw [hinit]
      exact ⟨[], by simp [Text.join]⟩
    · rw [List.map_singleton, join_dot_concat hinit]
      exact ⟨_, (List.append_cons ..)⟩
  obtain ⟨front, hfront⟩ := hends
  rw [hfront]
  refine ⟨List.append_ne_nil_of_right_ne_nil _ (hlast' hlast), fun hdot => hfree' ?_⟩
  rw [List.getLast?_append_of_ne_nil _ (hlast' hlast)] at hdot
  exact List.mem_of_getLast? hdot

theorem isPureAscii_root_dot (s : Text) : isPureAscii (s ++ [unit '.']) = isPureAscii s := by
  have hdot : decide ((unit '.').toNat ≤ 0x7F) = true := by decide
  rw [isPureAscii, List.all_append, List.all_cons, hdot]
  simp [isPureAscii]

/-! ### Two spellings of a host -/

theorem codePoints_concat {u : CodeUnit} (hlow : isLowSurrogate u = false) (s : Text) :
    codePoints (s ++ [u]) = codePoints s ++ [u.toNat] := by
  induction s using codePoints.induct with
  | case1 => rfl
  | case2 v => simp [codePoints, hlow]
  | case3 v w rest hpair ih =>
      rw [List.cons_append, List.cons_append, codePoints, if_pos hpair, ih, codePoints,
        if_pos hpair, List.cons_append]
  | case4 v w rest hpair ih =>
      rw [List.cons_append, List.cons_append, codePoints, if_neg hpair, ← List.cons_append, ih,
        codePoints, if_neg hpair, List.cons_append]

theorem stripInvisible_root_dot (rawHost : Text) :
    stripInvisible (rawHost ++ [unit '.']) = stripInvisible rawHost ++ [unit '.'] := by
  have hvisible : isInvisible (unit '.').toNat = false := by decide
  rw [stripInvisible, codePoints_concat (by decide), List.filter_append, List.flatMap_append,
    ← stripInvisible, List.filter_cons, hvisible]
  rfl

/-- A name that is no address is none with a root dot either. -/
theorem isIpHost_root_dot {host : Text} (hhost : host ≠ []) (hroot : host.getLast? ≠ some (unit '.'))
    (h : isIpHost host = false) : isIpHost (host ++ [unit '.']) = false := by
  have hsame : analyzeIpv4 (host ++ [unit '.']) = analyzeIpv4 host := by
    rw [analyzeIpv4, analyzeIpv4, stripTrailingRootDot_of_last hroot,
      stripTrailingRootDot_concat hhost]
  have hgroups : ipv6Groups (host ++ [unit '.']) = none := by
    cases hgroups : ipv6Groups (host ++ [unit '.']) with
    | none => rfl
    | some groups => exact absurd (by simp) (ipv6Groups_iff.mp hgroups).last_ne_dot
  rw [isIpHost, Bool.and_eq_false_iff, Bool.or_eq_false_iff] at h
  rcases h with hempty | ⟨hfour, -⟩
  · exact absurd (bne_eq_false_iff_eq.mp hempty) hhost
  · simp [isIpHost, hsame, hfour, analyzeIpv6, hgroups]

variable (P)

/-- The context of an input whose host was written this way. -/
def FromHost (rawHost : Text) (ctx : InspectionContext) : Prop :=
  ∃ facts, deriveHostFacts P rawHost = .ok facts ∧ ctx.host = facts.host ∧
    ctx.isIp = facts.psl.isIp ∧ ctx.registrableDomain = facts.psl.registrableDomain

theorem fromHost_of_parse {input : Text} {runtime : RuntimeConfig} {ctx : InspectionContext}
    (h : parseInput P input runtime = .ok (some ctx)) : FromHost P ctx.rawHost ctx := by
  rw [parseInput] at h
  split at h
  · cases h
  · rw [parsePrepared] at h
    split at h
    · cases h
    · obtain ⟨facts, hfacts, hctx⟩ := bind_eq_ok.mp h
      cases hctx
      exact ⟨facts, hfacts, rfl, rfl, rfl⟩

/-- The suffix lookup drops the root dot of a name: the domain is that of the name without it. -/
def DropsRootDot : Prop :=
  ∀ host r, host.getLast? ≠ some (unit '.') → P.tldtsParse false host = .ok r →
    ∃ r', P.tldtsParse false (host ++ [unit '.']) = .ok r' ∧ r'.domain = r.domain ∧ r'.isIp = r.isIp

/-- The IDNA processor converts label by label, and the empty root label stays. -/
def KeepsRootDot (tr46ToAscii : Text → Except Thrown (Option Text)) : Prop :=
  ∀ host, tr46ToAscii (host ++ [unit '.'])
    = (tr46ToAscii host).map (Option.map fun ace => ace ++ [unit '.'])

theorem toAscii_root_dot {tr46ToAscii : Text → Except Thrown (Option Text)}
    (h : KeepsRootDot tr46ToAscii) (host : Text) :
    toAscii tr46ToAscii (host ++ [unit '.']) = toAscii tr46ToAscii host ++ [unit '.'] := by
  rw [toAscii, h host, toAscii]
  cases tr46ToAscii host with
  | error e => rfl
  | ok ace => cases ace <;> rfl

variable {P}

/-- A name with a registrable domain was looked up as it stands. -/
theorem looked_up {rawHost domain : Text} {facts : HostFacts}
    (h : deriveHostFacts P rawHost = .ok facts) (hdomain : facts.psl.registrableDomain = some domain) :
    facts.host = stripInvisible rawHost ∧ facts.host ≠ [] ∧ isIpHost facts.host = false ∧
      analyzeHost P facts.host = .ok facts.psl := by
  rw [deriveHostFacts] at h
  split at h
  · obtain ⟨psl, hpsl, hfacts⟩ := bind_eq_ok.mp h
    cases hpsl
    cases hfacts
    cases hdomain
  · rename_i hname
    rw [not_or, Bool.not_eq_true] at hname
    obtain ⟨psl, hpsl, hfacts⟩ := bind_eq_ok.mp h
    cases hfacts
    exact ⟨rfl, hname.1, hname.2, hpsl⟩

theorem looks_up {rawHost : Text} {facts : HostFacts} (h : deriveHostFacts P rawHost = .ok facts)
    (hhost : stripInvisible rawHost ≠ []) (hname : isIpHost (stripInvisible rawHost) = false) :
    facts.host = stripInvisible rawHost ∧ analyzeHost P (stripInvisible rawHost) = .ok facts.psl := by
  rw [deriveHostFacts] at h
  split at h
  · rename_i hnone
    rw [hname] at hnone
    exact absurd hnone (by simp [hhost])
  · obtain ⟨psl, hpsl, hfacts⟩ := bind_eq_ok.mp h
    cases hfacts
    exact ⟨rfl, hpsl⟩

/-- A host with a registrable domain and the same host with a root dot differ in that dot only. -/
theorem fromHost_root_dot (htldts : DropsRootDot P) {rawHost domain : Text}
    {ctx dotted : InspectionContext} (hctx : FromHost P rawHost ctx)
    (hdotted : FromHost P (rawHost ++ [unit '.']) dotted)
    (hroot : ctx.host.getLast? ≠ some (unit '.')) (hdomain : ctx.registrableDomain = some domain) :
    ctx.host ≠ [] ∧ dotted.host = ctx.host ++ [unit '.'] ∧ dotted.isIp = ctx.isIp ∧
      dotted.registrableDomain = some domain := by
  obtain ⟨facts, hfacts, hhost, hip, hrd⟩ := hctx
  obtain ⟨facts', hfacts', hhost', hip', hrd'⟩ := hdotted
  obtain ⟨hstripped, hne, hname, hpsl⟩ := looked_up hfacts (hrd.symm.trans hdomain)
  rw [← hhost] at hstripped hne hname hpsl
  have hsame := stripInvisible_root_dot rawHost
  rw [← hstripped] at hsame
  obtain ⟨hdot, hpsl'⟩ := looks_up hfacts' (by simp [hsame])
    (by rw [hsame]; exact isIpHost_root_dot hne hroot hname)
  rw [hsame] at hdot hpsl'
  obtain ⟨r, hr, hresult⟩ := bind_eq_ok.mp hpsl
  obtain ⟨r', hr', hresult'⟩ := bind_eq_ok.mp hpsl'
  obtain ⟨found, hfound, hdomain', hip''⟩ := htldts ctx.host r hroot hr
  cases hr'.symm.trans hfound
  have hdomains : facts'.psl.registrableDomain = facts.psl.registrableDomain := by
    rw [← pure_eq_ok.mp hresult, ← pure_eq_ok.mp hresult']
    exact hdomain'
  have hips : facts'.psl.isIp = facts.psl.isIp := by
    rw [← pure_eq_ok.mp hresult, ← pure_eq_ok.mp hresult']
    exact congrArg (fun ip : Option Bool => ip.getD false) hip''
  refine ⟨hne, hhost'.trans hdot, ?_, ?_⟩
  · rw [hip', hip, hips]
  · rw [hrd', hdomains, ← hrd, hdomain]

/-! ### The root dot and the watchlist -/

theorem codes_localeCaseCollapse (tr46ToAscii : Text → Except Thrown (Option Text))
    (ctx : InspectionContext) :
    (localeCaseCollapse P tr46ToAscii ctx).map CollectedFinding.code =
      if ctx.isIp = false ∧ ctx.host ≠ [] ∧ isPureAscii ctx.host = false ∧
          isPureAscii (turkishLowercase P ctx.host) = true ∧
          turkishLowercase P ctx.host ≠ toAscii tr46ToAscii ctx.host then
        [if isExactBrandDomain (collapsedRegistrableDomain P ctx) then .brandLocaleCollapse
          else .localeCaseAmbiguity]
      else [] := by
  rw [localeCaseCollapse]
  by_cases hip : ctx.isIp = true
  · simp [hip]
  by_cases hhost : ctx.host = [] ∨ isPureAscii ctx.host = true
  · rcases hhost with hhost | hhost <;> simp [hip, hhost]
  rw [not_or, Bool.not_eq_true] at hhost
  by_cases hcollapsed : isPureAscii (turkishLowercase P ctx.host) = true
  · by_cases hsame : turkishLowercase P ctx.host = toAscii tr46ToAscii ctx.host
    · simp [hip, hhost, hsame]
    · by_cases hbrand : isExactBrandDomain (collapsedRegistrableDomain P ctx) = true
      · simp [hip, hhost, hcollapsed, hsame, hbrand]
      · simp [hip, hhost, hcollapsed, hsame, hbrand]
  · simp [hip, hhost, hcollapsed]

/-- The registrable domain as it is written lowercases to a brand, and the host to an ASCII name
that is not the one it resolves to. -/
def CollapsesToBrand (P : Platform) (tr46ToAscii : Text → Except Thrown (Option Text))
    (ctx : InspectionContext) : Prop :=
  ctx.isIp = false ∧ isPureAscii ctx.host = false ∧
    isPureAscii (turkishLowercase P ctx.host) = true ∧
    turkishLowercase P ctx.host ≠ toAscii tr46ToAscii ctx.host ∧
    isExactBrandDomain (turkishLowercase P (lastLabels (rdLabelCount ctx) ctx.host)) = true

theorem turkishLowercase_root_dot (s : Text) :
    turkishLowercase P (s ++ [unit '.']) = turkishLowercase P s ++ [unit '.'] :=
  turkishLowercase_append_dot s []

/-- With a root dot the codes stay as they are exactly when the host does not collapse to a brand:
the name compared with the watchlist is the lowercased registrable domain without the dot, and
never with it. -/
theorem localeCaseCollapse_rootDot_iff {tr46ToAscii : Text → Except Thrown (Option Text)}
    (hascii : KeepsRootDot tr46ToAscii) (htldts : DropsRootDot P) (hlower : LowersUnits P)
    {rawHost domain : Text} {ctx dotted : InspectionContext} (hctx : FromHost P rawHost ctx)
    (hdotted : FromHost P (rawHost ++ [unit '.']) dotted)
    (hroot : ctx.host.getLast? ≠ some (unit '.')) (hdomain : ctx.registrableDomain = some domain) :
    ((localeCaseCollapse P tr46ToAscii dotted).map CollectedFinding.code
        = (localeCaseCollapse P tr46ToAscii ctx).map CollectedFinding.code
      ↔ ¬ CollapsesToBrand P tr46ToAscii ctx) ∧
    collapsedRegistrableDomain P ctx
      = turkishLowercase P (lastLabels (rdLabelCount ctx) ctx.host) ∧
    collapsedRegistrableDomain P dotted
      ≠ turkishLowercase P (lastLabels (rdLabelCount ctx) ctx.host) := by
  obtain ⟨hhost, hdot, hip, hdomain'⟩ := fromHost_root_dot htldts hctx hdotted hroot hdomain
  have hpositive : 0 < rdLabelCount ctx := by
    rw [rdLabelCount, hdomain]
    exact List.length_pos_iff.mpr (List.splitOn_ne_nil _ _)
  have hcount : rdLabelCount dotted = rdLabelCount ctx := by
    rw [rdLabelCount, rdLabelCount, hdomain, hdomain']
  have hplain : collapsedRegistrableDomain P ctx
      = turkishLowercase P (lastLabels (rdLabelCount ctx) ctx.host) := by
    rw [collapsedRegistrableDomain, if_pos hpositive, lastLabels_turkishLowercase hlower]
  have hrooted : collapsedRegistrableDomain P dotted = [] ∨
      (collapsedRegistrableDomain P dotted).getLast? = some (unit '.') := by
    rw [collapsedRegistrableDomain, hcount, if_pos hpositive, hdot, turkishLowercase_root_dot]
    exact lastLabels_root_dot hpositive _
  have hunlisted : isExactBrandDomain (collapsedRegistrableDomain P dotted) = false := by
    by_contra hlisted
    obtain ⟨hne, hlast⟩ := brand_no_root_dot (Bool.eq_true_of_not_eq_false hlisted)
    exact hrooted.elim hne hlast
  refine ⟨?_, hplain, ?_⟩
  · have hguards : (dotted.isIp = false ∧ dotted.host ≠ [] ∧ isPureAscii dotted.host = false ∧
          isPureAscii (turkishLowercase P dotted.host) = true ∧
          turkishLowercase P dotted.host ≠ toAscii tr46ToAscii dotted.host) ↔
        (ctx.isIp = false ∧ ctx.host ≠ [] ∧ isPureAscii ctx.host = false ∧
          isPureAscii (turkishLowercase P ctx.host) = true ∧
          turkishLowercase P ctx.host ≠ toAscii tr46ToAscii ctx.host) := by
      rw [hdot, hip, turkishLowercase_root_dot, toAscii_root_dot hascii, isPureAscii_root_dot,
        isPureAscii_root_dot, ne_eq (turkishLowercase P ctx.host ++ [unit '.']), List.append_left_inj]
      simp [hhost]
    rw [codes_localeCaseCollapse, codes_localeCaseCollapse, hplain, hunlisted]
    simp only [hguards]
    rw [CollapsesToBrand]
    split
    · rename_i hreached
      obtain ⟨hnoip, -, hforeign, hcollapsed, hother⟩ := hreached
      by_cases hbrand : isExactBrandDomain
          (turkishLowercase P (lastLabels (rdLabelCount ctx) ctx.host)) = true
      · simp [hbrand, hnoip, hforeign, hcollapsed, hother]
      · simp [hbrand]
    · rename_i hstopped
      refine iff_of_true rfl fun hbrand => hstopped ?_
      exact ⟨hbrand.1, hhost, hbrand.2.1, hbrand.2.2.1, hbrand.2.2.2.1⟩
  · obtain ⟨hne, hlast⟩ := turkishLowercase_lastLabels hlower hpositive hhost hroot
    intro hsame
    rw [hsame] at hrooted
    exact hrooted.elim hne hlast

end

/-! ### A brand behind a root dot -/

/-- A platform that knows ASCII and `İ`, and whose suffix list is that of the last label. -/
def turkishPlatform : Platform :=
  { Platform.ascii with
    toLowerCase := fun s => s.flatMap fun u =>
      if u = unit 'İ' then [unit 'i', 0x307] else [asciiLower u]
    isLetterMarkNumber := fun cp => Platform.ascii.isLetterMarkNumber cp || cp == 0x130
    tldtsParse := fun _ host => .ok
      { domain := some (lastLabels 2 host.dropTrailingDot), publicSuffix := some (text "com"),
        subdomain := some [], isIp := some false, isIcann := some true }
    toLowerCase_ascii := by
      intro s hascii
      have hsame : ∀ u ∈ s, (if u = unit 'İ' then [unit 'i', 0x307] else [asciiLower u])
          = [asciiLower u] := by
        intro u hu
        refine if_neg ?_
        rintro rfl
        exact absurd (hascii _ hu) (by decide)
      rw [List.flatMap_congr hsame, List.map_eq_flatMap]
    isLetterMarkNumber_ascii := by
      intro cp hcp
      have hother : (cp == 0x130) = false := beq_eq_false_iff_ne.mpr (by omega)
      rw [Platform.ascii.isLetterMarkNumber_ascii cp hcp, hother, Bool.or_false] }

/-- The conversion of one label, of those used here. -/
def aceLabel (label : Text) : Text :=
  if label = text "tİktok" then text "xn--tiktok-qyd" else label.map asciiLower

def aceName (host : Text) : Except Thrown (Option Text) :=
  .ok (some (Text.join [unit '.'] ((host.split (unit '.')).map aceLabel)))

theorem aceName_keepsRootDot : KeepsRootDot aceName := by
  intro host
  have hlabels : (host.split (unit '.')).map aceLabel ≠ [] := by
    rw [ne_eq, List.map_eq_nil_iff]
    exact List.splitOn_ne_nil _ _
  rw [aceName, NumericHost.split_root_dot, List.map_append, List.map_singleton,
    show aceLabel [] = [] by decide, join_dot_concat hlabels]
  rfl

theorem turkishPlatform_dropsRootDot : DropsRootDot turkishPlatform := by
  intro host r hroot hr
  cases hr
  refine ⟨_, rfl, ?_, rfl⟩
  simp only [dropTrailingDot_concat, dropTrailingDot_of_last hroot]

theorem turkishPlatform_lowersUnits : LowersUnits turkishPlatform := by
  intro u hu
  have hlower : turkishPlatform.toLowerCase [u]
      = if u = unit 'İ' then [unit 'i', 0x307] else [asciiLower u] := by
    simp [turkishPlatform]
  rw [hlower]
  split
  · decide
  · refine ⟨List.cons_ne_nil _ _, fun hdot => ?_⟩
    rw [List.mem_singleton, asciiLower] at hdot
    split at hdot
    · rename_i hupper
      simp only [isUpper, Bool.and_eq_true, decide_eq_true_eq] at hupper
      have hsum := congrArg UInt16.toNat hdot
      have hval : (unit '.').toNat = 46 := by decide
      rw [UInt16.toNat_add, hval] at hsum
      have h32 : (32 : UInt16).toNat = 32 := by decide
      omega
    · exact hu hdot.symm

/-- The two links as the parser reads them. -/
theorem tiktok_parsed : ∃ ctx,
    parseInput turkishPlatform (text "https://tİktok.com/") (depthRuntime 4) = .ok (some ctx) ∧
    ctx.rawHost = text "tİktok.com" ∧ ctx.host.getLast? ≠ some (unit '.') ∧
    ctx.registrableDomain = some (text "tİktok.com") := by
  refine ⟨_, rfl, ?_, ?_, ?_⟩
  · decide +kernel
  · decide +kernel
  · decide +kernel

theorem tiktok_dotted_parsed : ∃ dotted,
    parseInput turkishPlatform (text "https://tİktok.com./") (depthRuntime 4) = .ok (some dotted) ∧
    dotted.rawHost = text "tİktok.com" ++ [unit '.'] := by
  refine ⟨_, rfl, ?_⟩
  decide +kernel

theorem localeCaseCollapse_rootDot_tiktok : ∃ ctx dotted,
    parseInput turkishPlatform (text "https://tİktok.com/") (depthRuntime 4) = .ok (some ctx) ∧
    parseInput turkishPlatform (text "https://tİktok.com./") (depthRuntime 4) = .ok (some dotted) ∧
    ((localeCaseCollapse turkishPlatform aceName dotted).map CollectedFinding.code
        = (localeCaseCollapse turkishPlatform aceName ctx).map CollectedFinding.code
      ↔ ¬ CollapsesToBrand turkishPlatform aceName ctx) ∧
    collapsedRegistrableDomain turkishPlatform ctx
      = turkishLowercase turkishPlatform (lastLabels (rdLabelCount ctx) ctx.host) ∧
    collapsedRegistrableDomain turkishPlatform dotted
      ≠ turkishLowercase turkishPlatform (lastLabels (rdLabelCount ctx) ctx.host) := by
  obtain ⟨ctx, hctx, hraw, hroot, hdomain⟩ := tiktok_parsed
  obtain ⟨dotted, hdotted, hraw'⟩ := tiktok_dotted_parsed
  have hfrom := fromHost_of_parse turkishPlatform hctx
  have hfrom' := fromHost_of_parse turkishPlatform hdotted
  rw [hraw] at hfrom
  rw [hraw'] at hfrom'
  exact ⟨ctx, dotted, hctx, hdotted, localeCaseCollapse_rootDot_iff aceName_keepsRootDot
    turkishPlatform_dropsRootDot turkishPlatform_lowersUnits hfrom hfrom' hroot hdomain⟩

/-- The name that reads as `tiktok.com` under a Turkish locale is reported as that brand, and
with a root dot as a mere ambiguity. -/
theorem brand_lost_behind_root_dot : ∃ ctx dotted,
    parseInput turkishPlatform (text "https://tİktok.com/") (depthRuntime 4) = .ok (some ctx) ∧
    parseInput turkishPlatform (text "https://tİktok.com./") (depthRuntime 4) = .ok (some dotted) ∧
    (localeCaseCollapse turkishPlatform aceName ctx).map CollectedFinding.code
      = [.brandLocaleCollapse] ∧
    (localeCaseCollapse turkishPlatform aceName dotted).map CollectedFinding.code
      = [.localeCaseAmbiguity] := by
  refine ⟨_, _, rfl, rfl, ?_, ?_⟩
  · decide +kernel
  · decide +kernel

end Linklint
