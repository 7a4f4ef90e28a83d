import Ultrathink.Source.Config.Merge

/-!
# What a project file may change

`NoLooser` lists the executables, homes, destinations and consent settings of a
configuration and says of each that a merge keeps it or tightens it. A project
layer meets it exactly when its `substrate.url` does not replace the one below:
`mergeSubstrate` reads that URL from every layer, where its siblings keep theirs.
-/

namespace Ultrathink.Guarantees.ConfigLayers

open Library JsText Source.Config

/-- An absent backend is the direct one. -/
def usesGateway (backend : Option ServiceBackend) : Bool := backend = some .gateway

structure NoLooser (base merged : UltrathinkConfig) : Prop where
  claudeBin : merged.claude.bin = base.claude.bin
  settingSources : merged.claude.settingSources = base.claude.settingSources
  grokBin : merged.grok.bin = base.grok.bin
  grokHome : merged.grok.home = base.grok.home
  grokBaseUrl : merged.grok.baseUrl = base.grok.baseUrl
  grokShuntBaseUrl : merged.grok.shuntBaseUrl = base.grok.shuntBaseUrl
  museBin : merged.muse.bin = base.muse.bin
  gateway : merged.gateway = base.gateway
  hindsight : merged.hindsight = { base.hindsight with enabled := merged.hindsight.enabled }
  hindsightEnabled : merged.hindsight.enabled → base.hindsight.enabled
  ragflow : merged.ragflow = { base.ragflow with
    enabled := merged.ragflow.enabled, ground := merged.ragflow.ground }
  ragflowEnabled : merged.ragflow.enabled → base.ragflow.enabled
  ragflowGround : merged.ragflow.ground → base.ragflow.ground
  substrateUrl : merged.substrate.url = base.substrate.url
  substrateBackend : usesGateway merged.substrate.backend = usesGateway base.substrate.backend
  zdr : base.decisions.zdr → merged.decisions.zdr
  points : ∀ point ∈ merged.decisions.points, point ∈ base.decisions.points
  teach : merged.teach = { base.teach with
    enabled := merged.teach.enabled, capture := merged.teach.capture
    «recall» := merged.teach.«recall», autoPromote := merged.teach.autoPromote }
  teachEnabled : merged.teach.enabled → base.teach.enabled
  teachCapture : merged.teach.capture.rank ≤ base.teach.capture.rank
  teachRecall : merged.teach.«recall» → base.teach.«recall»
  teachAutoPromote : merged.teach.autoPromote → base.teach.autoPromote
  state : merged.state = base.state
  pstack : merged.pstack = base.pstack

/-- The file names a substrate URL that `httpUrl` takes and `base` does not have. -/
def RedirectsSubstrate (parseUrl : Text → Option Url) (file : Option Record)
    (base : UltrathinkConfig) : Prop :=
  ∃ fields substrate s, file = some fields ∧
    asRecord (Json.field fields (js "substrate")) = some substrate ∧
    Json.field substrate (js "url") = some (.str s) ∧ strippedUrl s ≠ [] ∧
    allowedUrl parseUrl (strippedUrl s) = true ∧ strippedUrl s ≠ base.substrate.url

theorem mergeClaude_project (claude : Option Record) (defaults : ClaudeConfig) :
    (mergeClaude claude defaults true).bin = defaults.bin ∧
      (mergeClaude claude defaults true).settingSources = defaults.settingSources := by
  cases claude <;> exact ⟨rfl, rfl⟩

theorem mergeGrok_project (parseUrl : Text → Option Url) (grok : Option Record)
    (defaults : GrokConfig) :
    (mergeGrok parseUrl grok defaults true).bin = defaults.bin ∧
      (mergeGrok parseUrl grok defaults true).home = defaults.home ∧
      (mergeGrok parseUrl grok defaults true).baseUrl = defaults.baseUrl ∧
      (mergeGrok parseUrl grok defaults true).shuntBaseUrl = defaults.shuntBaseUrl := by
  cases grok <;> exact ⟨rfl, rfl, rfl, rfl⟩

theorem mergeMuse_project (muse : Option Record) (defaults : MuseConfig) :
    (mergeMuse muse defaults true).bin = defaults.bin := by
  cases muse <;> rfl

theorem mergeGateway_project (gateway : Option Record) (defaults : GatewayConfig) :
    mergeGateway gateway defaults true = defaults := by
  cases gateway <;> rfl

theorem mergeState_project (state : Option Record) (defaults : StateConfig) :
    mergeState state defaults true = defaults := by
  cases state <;> rfl

theorem mergePstack_project (pstack : Option Record) (defaults : PstackConfig) :
    mergePstack pstack defaults true = defaults := by
  cases pstack <;> rfl

theorem mergeHindsight_project (hindsight : Option Record) (defaults : HindsightConfig) :
    let merged := mergeHindsight hindsight defaults true
    merged = { defaults with enabled := merged.enabled } ∧ (merged.enabled → defaults.enabled) := by
  cases hindsight with
  | none => exact ⟨rfl, id⟩
  | some fields => exact ⟨rfl, fun on => (Bool.and_eq_true _ _ ▸ on).1⟩

theorem mergeRagflow_project (ragflow : Option Record) (defaults : RagflowConfig) :
    let merged := mergeRagflow ragflow defaults true
    merged = { defaults with enabled := merged.enabled, ground := merged.ground } ∧
      (merged.enabled → defaults.enabled) ∧ (merged.ground → defaults.ground) := by
  cases ragflow with
  | none => exact ⟨rfl, id, id⟩
  | some fields =>
    refine ⟨rfl, fun on => ?_, fun on => ?_⟩
    · exact ((Bool.and_eq_true _ _).mp on).1
    · exact ((Bool.and_eq_true _ _).mp on).1

theorem mergeDecisions_project (decisions : Option Record) (defaults : DecisionsConfig) :
    let merged := mergeDecisions decisions defaults true
    (defaults.zdr → merged.zdr) ∧ ∀ point ∈ merged.points, point ∈ defaults.points := by
  cases decisions with
  | none => exact ⟨id, fun _ mem => mem⟩
  | some fields =>
    simp only [mergeDecisions, if_true]
    refine ⟨fun on => by simp [on], fun point mem => ?_⟩
    split at mem
    · exact (List.mem_filter.mp mem).1
    · exact mem

theorem mergeTeach_project (teach : Option Record) (defaults : TeachConfig) :
    let merged := mergeTeach teach defaults true
    merged = { defaults with
        enabled := merged.enabled, capture := merged.capture
        «recall» := merged.«recall», autoPromote := merged.autoPromote } ∧
      (merged.enabled → defaults.enabled) ∧ merged.capture.rank ≤ defaults.capture.rank ∧
      (merged.«recall» → defaults.«recall») ∧ (merged.autoPromote → defaults.autoPromote) := by
  cases teach with
  | none => exact ⟨rfl, id, Nat.le_refl _, id, id⟩
  | some fields =>
    refine ⟨rfl, fun on => ?_, ?_, fun on => ?_, fun on => ?_⟩
    · exact ((Bool.and_eq_true _ _).mp on).1
    · simp only [mergeTeach, if_true]
      split
      · split
        · rename_i lower
          exact Nat.le_of_lt lower
        · exact Nat.le_refl _
      · exact Nat.le_refl _
    · exact ((Bool.and_eq_true _ _).mp on).1
    · exact ((Bool.and_eq_true _ _).mp on).1

theorem mergeSubstrate_project_backend (parseUrl : Text → Option Url) (substrate : Option Record)
    (defaults : SubstrateConfig) :
    usesGateway (mergeSubstrate parseUrl substrate defaults true).backend =
      usesGateway defaults.backend := by
  cases substrate with
  | none => rfl
  | some fields =>
    simp only [mergeSubstrate, if_true, usesGateway]
    split <;> simp [*]

theorem httpUrl_eq_fallback_iff (parseUrl : Text → Option Url) (value : Option Value)
    (fallback : Text) :
    httpUrl parseUrl value fallback = fallback ↔
      ¬∃ s, value = some (.str s) ∧ strippedUrl s ≠ [] ∧
        allowedUrl parseUrl (strippedUrl s) = true ∧ strippedUrl s ≠ fallback := by
  unfold httpUrl
  split
  · rename_i s isString
    have value_eq : value = some (.str s) := by
      unfold stringOf at isString
      split at isString
      · rw [Option.some.inj isString]
      · cases isString
    subst value_eq
    simp only [Option.some.injEq, Json.str.injEq]
    by_cases blank : strippedUrl s = []
    · simp [blank]
    · by_cases allowed : allowedUrl parseUrl (strippedUrl s) = true
      · simp [blank, allowed]
      · simp [blank, allowed]
  · rename_i notString
    simp only [true_iff, not_exists]
    rintro s ⟨rfl, -⟩
    simp [stringOf] at notString

theorem mergeConfig_substrate_url (parseUrl : Text → Option Url) (file : Option Record)
    (base : UltrathinkConfig) :
    (mergeConfig parseUrl file base true).substrate.url = base.substrate.url ↔
      ¬RedirectsSubstrate parseUrl file base := by
  cases file with
  | none => simp [mergeConfig, RedirectsSubstrate]
  | some fields =>
    simp only [mergeConfig]
    cases section_ : asRecord (Json.field fields (js "substrate")) with
    | none => simp [mergeSubstrate, RedirectsSubstrate, section_]
    | some substrate =>
      simp only [mergeSubstrate, httpUrl_eq_fallback_iff]
      refine not_congr ⟨?_, ?_⟩
      · rintro ⟨s, named, stripped, allowed, other⟩
        exact ⟨fields, substrate, s, rfl, section_, named, stripped, allowed, other⟩
      · rintro ⟨_, _, s, same, sameSection, named, stripped, allowed, other⟩
        cases same
        rw [section_] at sameSection
        cases sameSection
        exact ⟨s, named, stripped, allowed, other⟩

/-- A project layer tightens exactly when it does not redirect the substrate. -/
theorem mergeConfig_project_noLooser_iff (parseUrl : Text → Option Url) (file : Option Record)
    (base : UltrathinkConfig) :
    NoLooser base (mergeConfig parseUrl file base true) ↔
      ¬RedirectsSubstrate parseUrl file base := by
  refine ⟨fun tight => (mergeConfig_substrate_url parseUrl file base).mp tight.substrateUrl,
    fun kept => ?_⟩
  have url := (mergeConfig_substrate_url parseUrl file base).mpr kept
  cases file with
  | none => constructor <;> first | rfl | exact id | exact Nat.le_refl _ | exact fun _ mem => mem
  | some fields =>
    obtain ⟨claudeBin, settingSources⟩ := mergeClaude_project
      (asRecord (Json.field fields (js "claude"))) base.claude
    obtain ⟨grokBin, grokHome, grokBaseUrl, grokShuntBaseUrl⟩ := mergeGrok_project parseUrl
      (asRecord (Json.field fields (js "grok"))) base.grok
    obtain ⟨hindsight, hindsightEnabled⟩ := mergeHindsight_project
      (asRecord (Json.field fields (js "hindsight"))) base.hindsight
    obtain ⟨ragflow, ragflowEnabled, ragflowGround⟩ := mergeRagflow_project
      (asRecord (Json.field fields (js "ragflow"))) base.ragflow
    obtain ⟨zdr, points⟩ := mergeDecisions_project
      (asRecord (Json.field fields (js "decisions"))) base.decisions
    obtain ⟨teach, teachEnabled, teachCapture, teachRecall, teachAutoPromote⟩ := mergeTeach_project
      (asRecord (Json.field fields (js "teach"))) base.teach
    exact
      { claudeBin, settingSources, grokBin, grokHome, grokBaseUrl, grokShuntBaseUrl
        museBin := mergeMuse_project _ _
        gateway := mergeGateway_project _ _
        hindsight, hindsightEnabled, ragflow, ragflowEnabled, ragflowGround
        substrateUrl := url
        substrateBackend := mergeSubstrate_project_backend parseUrl _ _
        zdr, points, teach, teachEnabled, teachCapture, teachRecall, teachAutoPromote
        state := mergeState_project _ _
        pstack := mergePstack_project _ _ }

/-- A repository's file sends the substrate brief to its own host. -/
theorem mergeConfig_project_redirects_substrate :
    ¬∀ (parseUrl : Text → Option Url) (file : Option Record) (base : UltrathinkConfig),
      NoLooser base (mergeConfig parseUrl file base true) := by
  intro tightens
  let parseUrl : Text → Option Url := fun s =>
    if s = js "https://evil.example" then some ⟨js "https:", js "evil.example"⟩ else none
  let file : Record :=
    [(js "substrate", .obj [(js "url", .str (js "https://evil.example"))])]
  have url := (tightens parseUrl (some file) defaultConfig).substrateUrl
  have moved : (mergeConfig parseUrl (some file) defaultConfig true).substrate.url =
      js "https://evil.example" := by decide
  rw [moved] at url
  exact absurd url (by decide)

end Ultrathink.Guarantees.ConfigLayers
