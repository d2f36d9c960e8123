import Colloquy.Proofs.Configuration.Loaded

/-!
# What the environment takes precedence over

Where the environment gives the greatest depth, the one that is written in the file is not what comes
out. But the file has to keep the rules by itself before the environment is asked, so a written depth of
zero turns it away all the same. No other written depth can be told from the outcome.
-/

namespace Colloquy

/-- A text denotes at most one number. -/
theorem Text.Denotes.unique {s : String} {n m : Nat} (hn : Text.Denotes s n) (hm : Text.Denotes s m) :
    n = m := by
  have hfits : ∀ k, k = n ∨ k = m → k < Word.count (n + m) := by
    intro k hk
    have hle : k ≤ n + m := by omega
    exact Nat.lt_two_pow_self.trans_le (Nat.pow_le_pow_right (by decide) hle)
  have hword := Configuration.wordOf?_eq_some_iff.mpr ⟨hn, hfits n (.inl rfl)⟩
  rw [Configuration.wordOf?_eq_some_iff.mpr ⟨hm, hfits m (.inr rfl)⟩] at hword
  exact (Option.some.inj hword).symm

namespace Configuration

/-- A configuration with another greatest depth. -/
def withDepth (config : Configuration) (depth : UInt32) : Configuration :=
  { config with settings := { config.settings with maxDepth := depth } }

/-- A bound is zero that is no depth. -/
def HasOtherZero (config : Configuration) : Prop :=
  config.settings.historyLimit = 0 ∨ config.settings.previewChars = 0 ∨
    config.settings.streamBuffer = 0

variable {config : Configuration} {source source' : ConfigSource} {env : Environment}
  {depth depth' : UInt32}

theorem zeroBound_brokenBy_withDepth_iff :
    Violation.zeroBound.BrokenBy (config.withDepth depth) ↔ depth = 0 ∨ config.HasOtherZero := by
  change config.settings.historyLimit = 0 ∨ config.settings.previewChars = 0 ∨ depth = 0 ∨
    config.settings.streamBuffer = 0 ↔ _
  rw [HasOtherZero]
  tauto

section Validity

/-- A bound of zero is reported before anything else. -/
theorem violation?_eq_zeroBound_iff :
    config.violation? = some .zeroBound ↔ Violation.zeroBound.BrokenBy config := by
  constructor
  · exact brokenBy_of_violation?
  · intro hzero
    have hhas : config.settings.hasZero = true := by
      simpa [Violation.BrokenBy, TurnSettings.hasZero, or_assoc] using hzero
    rw [violation?, if_pos hhas]

/-- Depths that are not zero make no difference to the rules. -/
theorem violation?_withDepth (hdepth : depth ≠ 0) (hdepth' : depth' ≠ 0) :
    (config.withDepth depth).violation? = (config.withDepth depth').violation? := by
  have hboth : (depth == 0) = (depth' == 0) := by
    rw [beq_eq_false_iff_ne.mpr hdepth, beq_eq_false_iff_ne.mpr hdepth']
  have hzero : (config.withDepth depth).settings.hasZero =
      (config.withDepth depth').settings.hasZero := by
    simp only [TurnSettings.hasZero, withDepth, hboth]
  rw [violation?, violation?, hzero]
  rfl

end Validity

section Loading

/-- What becomes of a written configuration. -/
def loadWritten (written : Configuration) (env : Environment) : Except ConfigFault Configuration := do
  let written ← written.validated.mapError .invalid
  let config ← (written.under env).mapError .invalid
  config.validated.mapError .invalid

theorem load_of_writes (h : source.Writes config) : load source env = config.loadWritten env := by
  have hsource : ofSource source = config.validated.mapError .invalid := by
    cases source with
    | missing =>
      obtain rfl : config = standard := h
      rfl
    | unreadable => exact h.elim
    | text content =>
      rw [ConfigSource.Writes] at h
      rw [ofSource, h]
  rw [load, hsource, loadWritten]

/-- A configuration that breaks a rule as it is written is turned away for it. -/
theorem loadWritten_of_violation? {violation : Violation} (h : config.violation? = some violation) :
    config.loadWritten env = .error (.invalid violation) := by
  rw [loadWritten, validated_eq_error_iff.mpr h]
  rfl

/-- A configuration that keeps the rules as it is written is left to the environment. -/
theorem loadWritten_of_valid (h : config.violation? = none) :
    config.loadWritten env = (config.under env).mapError .invalid >>= fun made =>
      made.validated.mapError .invalid := by
  have hvalidated : config.validated = .ok config := by rw [validated, h]
  rw [loadWritten, hvalidated]
  rfl

end Loading

section Depths

variable {value : String} {n : Nat}

/-- If the environment gives the depth, it does not matter which one is written. -/
theorem under_withDepth (hvalue : env "PARLEY_MAX_DEPTH" = some value) :
    (config.withDepth depth).under env = (config.withDepth depth').under env := by
  have hdepth : maxDepthUnder env depth = maxDepthUnder env depth' := by
    rw [maxDepthUnder, maxDepthUnder, hvalue]
  change (storageKindUnder env config.storage.kind >>= fun kind =>
    maxDepthUnder env depth >>= fun maxDepth => _) = _
  rw [hdepth]
  rfl

/-- Written depths that are not zero are not told apart. -/
theorem loadWritten_withDepth (hvalue : env "PARLEY_MAX_DEPTH" = some value) (hdepth : depth ≠ 0)
    (hdepth' : depth' ≠ 0) :
    (config.withDepth depth).loadWritten env = (config.withDepth depth').loadWritten env := by
  have hsame : (config.withDepth depth).violation? = (config.withDepth depth').violation? :=
    violation?_withDepth hdepth hdepth'
  cases hviolation : (config.withDepth depth).violation? with
  | some violation =>
    rw [loadWritten_of_violation? hviolation, loadWritten_of_violation? (hsame ▸ hviolation)]
  | none =>
    rw [loadWritten_of_valid hviolation, loadWritten_of_valid (hsame ▸ hviolation),
      under_withDepth hvalue]

/-- What the environment is turned away for is no bound. -/
private theorem under_ne_zeroBound : config.under env ≠ .error .zeroBound := by
  intro h
  obtain hkind | ⟨kind, -, hbehind⟩ := bind_eq_error_iff.mp h
  · rw [storageKindUnder] at hkind
    split at hkind
    · cases hkind
    · obtain ⟨unknown, -, hunknown⟩ := mapError_eq_error_iff.mp hkind
      cases hunknown
  · obtain hdepth | ⟨maxDepth, -, hmade⟩ := bind_eq_error_iff.mp hbehind
    · rw [maxDepthUnder] at hdepth
      split at hdepth
      · cases hdepth
      · split at hdepth <;> cases hdepth
    · cases hmade

/-- The depth of the environment is the one that comes out. -/
theorem maxDepth_of_loadWritten (hvalue : env "PARLEY_MAX_DEPTH" = some value)
    (hdenotes : Text.Denotes (Text.trim value) n) {loaded : Configuration}
    (h : config.loadWritten env = .ok loaded) : loaded.settings.maxDepth.toNat = n := by
  obtain ⟨written, -, hbehind⟩ := bind_eq_ok_iff.mp h
  obtain ⟨made, hmade, hvalid⟩ := bind_eq_ok_iff.mp hbehind
  obtain ⟨rfl, -⟩ := validated_eq_ok_iff.mp (mapError_eq_ok_iff.mp hvalid)
  have hdepth := (under_eq_ok_iff.mp (mapError_eq_ok_iff.mp hmade)).maxDepth
  rw [hvalue] at hdepth
  exact hdepth.unique hdenotes

/-- If the environment gives a depth of at least one, bounds of zero are reported only of what is
written. -/
theorem loadWritten_eq_zeroBound_iff (hvalue : env "PARLEY_MAX_DEPTH" = some value)
    (hdenotes : Text.Denotes (Text.trim value) n) (hn : 1 ≤ n) :
    config.loadWritten env = .error (.invalid .zeroBound) ↔
      Violation.zeroBound.BrokenBy config := by
  constructor
  · intro h
    obtain hwritten | ⟨written, hwritten, hbehind⟩ := bind_eq_error_iff.mp h
    · obtain ⟨_, hviolation, heq⟩ := mapError_eq_error_iff.mp hwritten
      obtain rfl := ConfigFault.invalid.inj heq
      exact violation?_eq_zeroBound_iff.mp (validated_eq_error_iff.mp hviolation)
    · obtain ⟨rfl, -⟩ := validated_eq_ok_iff.mp (mapError_eq_ok_iff.mp hwritten)
      obtain hunder | ⟨made, hmade, hvalid⟩ := bind_eq_error_iff.mp hbehind
      · obtain ⟨_, hviolation, heq⟩ := mapError_eq_error_iff.mp hunder
        obtain rfl := ConfigFault.invalid.inj heq
        exact absurd hviolation under_ne_zeroBound
      · obtain ⟨_, hviolation, heq⟩ := mapError_eq_error_iff.mp hvalid
        obtain rfl := ConfigFault.invalid.inj heq
        have hoverridden := under_eq_ok_iff.mp (mapError_eq_ok_iff.mp hmade)
        have hdepth := hoverridden.maxDepth
        rw [hvalue] at hdepth
        have hmaxDepth : made.settings.maxDepth ≠ 0 := by
          intro hzero
          rw [hzero] at hdepth
          exact absurd (hdepth.unique hdenotes) (by simp; omega)
        have hothers := congrArg Configuration.settings hoverridden.others
        have hbroken := brokenBy_of_violation? (validated_eq_error_iff.mp hviolation)
        rw [Violation.BrokenBy, hothers] at hbroken
        rw [Violation.BrokenBy]
        tauto
  · intro hzero
    exact loadWritten_of_violation? (violation?_eq_zeroBound_iff.mpr hzero)

end Depths

/-- Let the environment give a depth of at least one, and let two files differ in the written depth and
in nothing else. They load alike, unless just one of the written depths is zero and no other bound is. A
written depth of zero turns a file away whatever the environment gives; otherwise the depth that comes
out is the one of the environment. -/
theorem load_withDepth {value : String} {n : Nat} (hvalue : env "PARLEY_MAX_DEPTH" = some value)
    (hdenotes : Text.Denotes (Text.trim value) n) (hn : 1 ≤ n)
    (hsource : source.Writes (config.withDepth depth))
    (hsource' : source'.Writes (config.withDepth depth')) :
    (load source env = load source' env ↔ (depth = 0 ↔ depth' = 0) ∨ config.HasOtherZero) ∧
      (depth = 0 → load source env = .error (.invalid .zeroBound)) ∧
      ∀ loaded, load source env = .ok loaded → loaded.settings.maxDepth.toNat = n := by
  rw [load_of_writes hsource, load_of_writes hsource']
  have hturned : ∀ depth, (config.withDepth depth).loadWritten env = .error (.invalid .zeroBound) ↔
      depth = 0 ∨ config.HasOtherZero := fun depth =>
    (loadWritten_eq_zeroBound_iff hvalue hdenotes hn).trans zeroBound_brokenBy_withDepth_iff
  refine ⟨⟨fun hsame => ?_, ?_⟩, fun hzero => (hturned depth).mpr (.inl hzero),
    fun loaded => maxDepth_of_loadWritten hvalue hdenotes⟩
  · have hzero := hturned depth
    rw [hsame, hturned depth'] at hzero
    tauto
  · rintro (hzero | hother)
    · by_cases hdepth : depth = 0
      · rw [(hturned depth).mpr (.inl hdepth), (hturned depth').mpr (.inl (hzero.mp hdepth))]
      · exact loadWritten_withDepth hvalue hdepth (mt hzero.mpr hdepth)
    · rw [(hturned depth).mpr (.inr hother), (hturned depth').mpr (.inr hother)]

section Files

/-- A file that says nothing but the greatest depth. -/
private def depthFile (digits : String) : ConfigSource :=
  .text ("[orchestrator]\nmax_depth = " ++ digits ++ "\n")

/-- An environment that gives the greatest depth. -/
private def fourCalls : Environment
  | "PARLEY_MAX_DEPTH" => some "4"
  | _ => none

/-- A text without agents writes what it says of the settings and the storage. -/
private theorem writes_of_parts {content : String}
    (h : (Toml.readAs? decode content).map (fun config =>
      (config.settings, config.storage, config.agents.length)) =
        some (config.settings, config.storage, 0)) (hagents : config.agents = []) :
    (ConfigSource.text content).Writes config := by
  obtain ⟨written, hread, hparts⟩ := Option.map_eq_some_iff.mp h
  simp only [Prod.mk.injEq, List.length_eq_zero_iff] at hparts
  obtain ⟨hsettings, hstorage, hnone⟩ := hparts
  rw [ConfigSource.Writes, hread]
  cases written
  cases config
  simp_all

private theorem writes_zero : (depthFile "0").Writes (standard.withDepth 0) :=
  writes_of_parts (by decide +kernel) rfl

private theorem writes_five : (depthFile "5").Writes (standard.withDepth 5) :=
  writes_of_parts (by decide +kernel) rfl

private theorem writes_seven : (depthFile "7").Writes (standard.withDepth 7) :=
  writes_of_parts (by decide +kernel) rfl

private theorem four_denotes : Text.Denotes (Text.trim "4") 4 :=
  ⟨['4'], .inl (by decide), by decide, by simp, by decide⟩

private theorem load_five :
    load (depthFile "5") fourCalls = .ok (standard.withDepth 4) := by
  have hunder : (standard.withDepth 5).under fourCalls = .ok (standard.withDepth 4) :=
    under_eq_ok_iff.mpr ⟨rfl, rfl, four_denotes, rfl⟩
  have hvalid : (standard.withDepth 4).validated = .ok (standard.withDepth 4) := rfl
  rw [load_of_writes writes_five, loadWritten_of_valid rfl, hunder]
  exact bind_eq_ok_iff.mpr ⟨_, rfl, mapError_eq_ok_iff.mpr hvalid⟩

/-- A file that says five loads like one that says seven, to the depth of the environment. -/
theorem load_withDepth_five_seven :
    load (depthFile "5") fourCalls = load (depthFile "7") fourCalls ∧
      ∃ loaded, load (depthFile "5") fourCalls = .ok loaded ∧
        loaded.settings.maxDepth.toNat = 4 := by
  have hvalue : fourCalls "PARLEY_MAX_DEPTH" = some "4" := rfl
  obtain ⟨hsame, -, hdepth⟩ :=
    load_withDepth hvalue four_denotes (by decide) writes_five writes_seven
  exact ⟨hsame.mpr (.inl (by decide)), _, load_five, hdepth _ load_five⟩

/-- A file that says zero is turned away, although the environment gives the depth, and the same file
with five in its place is not. -/
theorem load_depth_zero :
    fourCalls "PARLEY_MAX_DEPTH" = some "4" ∧
      load (depthFile "0") fourCalls = .error (.invalid .zeroBound) ∧
      load (depthFile "5") fourCalls = .ok (standard.withDepth 4) := by
  refine ⟨rfl, ?_, load_five⟩
  rw [load_of_writes writes_zero]
  exact loadWritten_of_violation? rfl

end Files

end Configuration

end Colloquy
