import Ultrathink.Library.Json
import Ultrathink.Library.Regex
import Ultrathink.Source.Config.Types

/-!
# Merging configuration layers

`config.ts`: the field checks, one merge per section, `mergeConfig` and
`loadConfig`. `new URL` is the parameter `parseUrl`, absent where it throws;
files are read through a parameter too, absent for a missing or unparsable one.
`isAbsolute` is the POSIX one. The path functions (`userConfigPath`,
`claudeConfigPaths`) are not modelled.
-/

namespace Ultrathink.Source.Config

open Library JsText Regex

/-- What a JSON number token can become: `1e999` is an infinity. -/
inductive Number where
  | finite (value : ℚ)
  | infinite (negative : Bool)

abbrev Value := Json Number

abbrev Record := Json.Record Number

structure Url where
  protocol : Text
  hostname : Text

def asRecord : Option Value → Option Record
  | some (.obj fields) => some fields
  | _ => none

def booleanOr (value : Option Value) (fallback : Bool) : Bool :=
  match value with
  | some (.bool b) => b
  | _ => fallback

def stringOf : Option Value → Option Text
  | some (.str s) => some s
  | _ => none

/-- `typeof value === "number" && Number.isFinite(value)` -/
def finiteOf : Option Value → Option ℚ
  | some (.num (.finite q)) => some q
  | _ => none

/-- A finite number that passes the check; anything else falls back. -/
def finiteOr (value : Option Value) (check : ℚ → Bool) (fallback : ℚ) : ℚ :=
  match finiteOf value with
  | some q => if check q then q else fallback
  | none => fallback

def isInteger (q : ℚ) : Bool := q.den = 1

/-- `ALL.includes(value) ? value : undefined` -/
def choiceOf {α : Type} [Choice α] (value : Option Value) : Option α :=
  match stringOf value with
  | some s => (Choice.all : List α).find? (fun a => Choice.text a = s)
  | none => none

def choiceOr {α : Type} [Choice α] (value : Option Value) (fallback : α) : α :=
  (choiceOf value).getD fallback

def nonEmpty (value : Option Value) (fallback : Text) : Text :=
  match stringOf value with
  | some s => if trim s = [] then fallback else trim s
  | none => fallback

def urlAsWritten (value : Option Value) (fallback : Text) : Text := nonEmpty value fallback

def maxTimerMs : ℚ := 2147483647

def nonNegativeMs (value : Option Value) (fallback : ℚ) : ℚ :=
  match finiteOf value with
  | some q => if 0 ≤ q then min q maxTimerMs else fallback
  | none => fallback

def positiveInt (value : Option Value) (fallback : ℚ) : ℚ :=
  match finiteOf value with
  | some q => if 1 ≤ q then ⌊q⌋ else fallback
  | none => fallback

def unitInterval (value : Option Value) (fallback : ℚ) : ℚ :=
  finiteOr value (fun q => 0 ≤ q && q ≤ 1) fallback

def intInRange (value : Option Value) (min max fallback : ℚ) : ℚ :=
  finiteOr value (fun q => isInteger q && min ≤ q && q ≤ max) fallback

/-- `\p{Cc}`: the C0 and C1 controls. -/
def hasControlCharacter (value : Text) : Bool :=
  value.any fun u => u ≤ 0x1F || (0x7F ≤ u && u ≤ 0x9F)

def normalizeSelectorField (value : Text) : Text :=
  if trim value = [] then [] else if hasControlCharacter value then value else trim value

def selectorField (value : Option Value) : Option Text :=
  (stringOf value).map normalizeSelectorField

/-- `selectorField(value) || fallback` -/
def selectorOr (value : Option Value) (fallback : Text) : Text :=
  match selectorField value with
  | some [] => fallback
  | some s => s
  | none => fallback

def digit : Expr := .one isDigit

def exactly (s : String) : Expr := literal false (js s)

/-- `\.\d{1,3}` -/
def octet : Expr :=
  .seq (exactly ".") (.seq digit (.seq (.alt digit .empty) (.alt digit .empty)))

/-- Loopback and private (RFC 1918) host names. -/
def privateHostRe : Expr :=
  .seq .atStart (.seq
    (.alt (exactly "localhost")
      (.alt (.seq (exactly "127") (.seq octet (.seq octet octet)))
        (.alt (.seq (exactly "10") (.seq octet (.seq octet octet)))
          (.alt (.seq (exactly "192.168") (.seq octet octet))
            (.alt (.seq (exactly "172.") (.seq
                (.alt (.seq (exactly "1") (.one fun u => 0x36 ≤ u && u ≤ 0x39))
                  (.alt (.seq (exactly "2") digit)
                    (.seq (exactly "3") (.one fun u => u = 0x30 || u = 0x31))))
                (.seq octet octet)))
              (exactly "[::1]"))))))
    .atEnd)

/-- Trimmed, without trailing slashes. -/
def strippedUrl (s : Text) : Text := (trim s).rdropWhile (fun u => u = 0x2F)

section Urls
variable (parseUrl : Text → Option Url)

/-- `https`, or cleartext to a loopback or private address. -/
def allowedUrl (s : Text) : Bool :=
  match parseUrl s with
  | some url =>
    url.protocol = js "https:" || (url.protocol = js "http:" && test privateHostRe url.hostname)
  | none => false

def httpUrl (value : Option Value) (fallback : Text) : Text :=
  match stringOf value with
  | some s =>
    let trimmed := strippedUrl s
    if trimmed = [] then fallback
    else if allowedUrl parseUrl trimmed then trimmed else fallback
  | none => fallback

end Urls

def mergeUplift (uplift : Option Record) (defaults : UpliftConfig) : UpliftConfig :=
  match uplift with
  | none => defaults
  | some uplift =>
    { enabled := booleanOr (Json.field uplift (js "enabled")) defaults.enabled
      skipTrivial := booleanOr (Json.field uplift (js "skipTrivial")) defaults.skipTrivial
      maxChars := finiteOr (Json.field uplift (js "maxChars")) (fun q => 0 ≤ q) defaults.maxChars
      echo := booleanOr (Json.field uplift (js "echo")) defaults.echo }

def maxNodesLimit : ℚ := 8

def mergeThink (think : Option Record) (defaults : ThinkConfig) : ThinkConfig :=
  match think with
  | none => defaults
  | some think =>
    let minNodes := finiteOr (Json.field think (js "minNodes")) (fun q => isInteger q && 1 ≤ q)
      defaults.minNodes
    let maxNodes := match finiteOf (Json.field think (js "maxNodes")) with
      | some q => if isInteger q && minNodes ≤ q then min q maxNodesLimit else defaults.maxNodes
      | none => defaults.maxNodes
    { enabled := booleanOr (Json.field think (js "enabled")) defaults.enabled
      minNodes := min minNodes maxNodes
      maxNodes
      engine := choiceOr (Json.field think (js "engine")) defaults.engine }

/-- A project layer keeps the executable and its setting sources. -/
def mergeClaude (claude : Option Record) (defaults : ClaudeConfig) (project : Bool) :
    ClaudeConfig :=
  match claude with
  | none => defaults
  | some claude =>
    { bin := if project then defaults.bin
        else nonEmpty (Json.field claude (js "bin")) defaults.bin
      model := (selectorField (Json.field claude (js "model"))).getD defaults.model
      thinking := booleanOr (Json.field claude (js "thinking")) defaults.thinking
      settingSources := match project, stringOf (Json.field claude (js "settingSources")) with
        | false, some s => trim s
        | _, _ => defaults.settingSources
      callTimeoutMs := nonNegativeMs (Json.field claude (js "callTimeoutMs")) defaults.callTimeoutMs
      budgetMs := nonNegativeMs (Json.field claude (js "budgetMs")) defaults.budgetMs
      concurrency := max 1 ⌊finiteOr (Json.field claude (js "concurrency")) (fun q => 0 < q)
        defaults.concurrency⌋
      echo := booleanOr (Json.field claude (js "echo")) defaults.echo }

/-- A project layer keeps `bin`, `home`, `baseUrl` and `shuntBaseUrl`. -/
def mergeGrok (parseUrl : Text → Option Url) (grok : Option Record) (defaults : GrokConfig)
    (project : Bool) : GrokConfig :=
  match grok with
  | none => defaults
  | some grok =>
    { enabled := booleanOr (Json.field grok (js "enabled")) defaults.enabled
      baseUrl := if project then defaults.baseUrl
        else httpUrl parseUrl (Json.field grok (js "baseUrl")) defaults.baseUrl
      model := selectorOr (Json.field grok (js "model")) defaults.model
      reasoningEffort := choiceOr (Json.field grok (js "reasoningEffort")) defaults.reasoningEffort
      transport := choiceOr (Json.field grok (js "transport")) defaults.transport
      bin := if project then defaults.bin else nonEmpty (Json.field grok (js "bin")) defaults.bin
      home := match project, stringOf (Json.field grok (js "home")) with
        | false, some s => trim s
        | _, _ => defaults.home
      callTimeoutMs := nonNegativeMs (Json.field grok (js "callTimeoutMs")) defaults.callTimeoutMs
      fallbackToClaude := booleanOr (Json.field grok (js "fallbackToClaude"))
        defaults.fallbackToClaude
      shuntBaseUrl := if project then defaults.shuntBaseUrl
        else httpUrl parseUrl (Json.field grok (js "shuntBaseUrl")) defaults.shuntBaseUrl
      shuntModel := selectorOr (Json.field grok (js "shuntModel")) defaults.shuntModel
      shuntMaxTokens := finiteOr (Json.field grok (js "shuntMaxTokens"))
        (fun q => isInteger q && 0 < q) defaults.shuntMaxTokens }

/-- A project layer keeps the executable. -/
def mergeMuse (muse : Option Record) (defaults : MuseConfig) (project : Bool) : MuseConfig :=
  match muse with
  | none => defaults
  | some muse =>
    { bin := if project then defaults.bin else nonEmpty (Json.field muse (js "bin")) defaults.bin
      model := (selectorField (Json.field muse (js "model"))).getD defaults.model
      reasoningEffort := choiceOr (Json.field muse (js "reasoningEffort")) defaults.reasoningEffort
      callTimeoutMs := nonNegativeMs (Json.field muse (js "callTimeoutMs"))
        defaults.callTimeoutMs }

def unsafeDictionaryKeys : List Text := [js "__proto__", js "constructor", js "prototype"]

def mergeHost (hosts : OrderedMap HostId HostModelOverride) (entry : Text × Value) :
    OrderedMap HostId HostModelOverride :=
  match asRecord (some entry.2), choiceOf (α := HostId) (some (.str entry.1)) with
  | some fields, some host =>
    let provider := selectorField (Json.field fields (js "provider"))
    let model := selectorField (Json.field fields (js "model"))
    if provider = none ∧ model = none then hosts
    else
      let lower := hosts.get? host
      hosts.set host
        { provider := provider.getD ((lower.map (·.provider)).getD [])
          model := model.getD ((lower.map (·.model)).getD []) }
  | _, _ => hosts

def mergeProviderDefault (dictionary : OrderedMap Text Text) (entry : Text × Value) :
    OrderedMap Text Text :=
  if entry.1 ∈ unsafeDictionaryKeys then dictionary
  else match selectorField (some entry.2) with
    | some [] => dictionary.erase entry.1
    | some selector => dictionary.set entry.1 selector
    | none => dictionary

def mergeModels (models : Option Record) (defaults : ModelsConfig) : ModelsConfig :=
  match models with
  | none => defaults
  | some models =>
    { hosts := ((asRecord (Json.field models (js "hosts"))).getD []).foldl mergeHost defaults.hosts
      providerDefaults := ((asRecord (Json.field models (js "providerDefaults"))).getD []).foldl
        mergeProviderDefault defaults.providerDefaults }

def modelPin (section_ : Option Record) (lower : LegacyModelProvenance) (blankClears : Bool) :
    LegacyModelProvenance :=
  match stringOf (section_.bind fun fields => Json.field fields (js "model")) with
  | none => lower
  | some model =>
    if trim model ≠ [] then .filePin else if blankClears then .explicitBlank else lower

def mergeHitl (hitl : Option Record) (defaults : HitlConfig) : HitlConfig :=
  match hitl with
  | none => defaults
  | some hitl =>
    { enabled := booleanOr (Json.field hitl (js "enabled")) defaults.enabled
      maxQuestions := intInRange (Json.field hitl (js "maxQuestions")) 1 4 defaults.maxQuestions
      knowledgeBase := booleanOr (Json.field hitl (js "knowledgeBase")) defaults.knowledgeBase }

def mergeNotion (notion : Option Record) (defaults : NotionConfig) : NotionConfig :=
  match notion with
  | none => defaults
  | some notion =>
    { dataSourceUrl := nonEmpty (Json.field notion (js "dataSourceUrl")) defaults.dataSourceUrl }

def mergeLinear (linear : Option Record) (defaults : LinearConfig) : LinearConfig :=
  match linear with
  | none => defaults
  | some linear => { team := nonEmpty (Json.field linear (js "team")) defaults.team }

def mergeTrack (track : Option Record) (defaults : TrackConfig) : TrackConfig :=
  match track with
  | none => defaults
  | some track =>
    { enabled := booleanOr (Json.field track (js "enabled")) defaults.enabled
      budgetMs := match finiteOf (Json.field track (js "budgetMs")) with
        | some q => if 0 < q then min q maxTimerMs else defaults.budgetMs
        | none => defaults.budgetMs
      concurrency := positiveInt (Json.field track (js "concurrency")) defaults.concurrency }

def greptileMaxScore : ℚ := 5

/-- A list of strings that are all nonblank, trimmed. -/
def skillsOf : Option Value → Option (List Text)
  | some (.arr items) => items.mapM fun item =>
    match item with
    | .str s => if trim s = [] then none else some (trim s)
    | _ => none
  | _ => none

def mergeShip (ship : Option Record) (defaults : ShipConfig) : ShipConfig :=
  match ship with
  | none => defaults
  | some ship =>
    { enabled := booleanOr (Json.field ship (js "enabled")) defaults.enabled
      autoMerge := booleanOr (Json.field ship (js "autoMerge")) defaults.autoMerge
      skills := (skillsOf (Json.field ship (js "skills"))).getD defaults.skills
      minScore := finiteOr (Json.field ship (js "minScore"))
        (fun q => 1 ≤ q && q ≤ greptileMaxScore) defaults.minScore
      requireNoComments := booleanOr (Json.field ship (js "requireNoComments"))
        defaults.requireNoComments
      maxRounds := positiveInt (Json.field ship (js "maxRounds")) defaults.maxRounds
      mergeMethod := choiceOr (Json.field ship (js "mergeMethod")) defaults.mergeMethod
      deleteBranch := booleanOr (Json.field ship (js "deleteBranch")) defaults.deleteBranch
      greptileOrganization := match stringOf (Json.field ship (js "greptileOrganization")) with
        | some s => trim s
        | none => defaults.greptileOrganization
      reviewTimeoutMs := positiveInt (Json.field ship (js "reviewTimeoutMs"))
        defaults.reviewTimeoutMs
      pollMs := positiveInt (Json.field ship (js "pollMs")) defaults.pollMs
      waitMs := positiveInt (Json.field ship (js "waitMs")) defaults.waitMs
      reviewRetries := match finiteOf (Json.field ship (js "reviewRetries")) with
        | some q => if 0 ≤ q then ⌊q⌋ else defaults.reviewRetries
        | none => defaults.reviewRetries
      mergeTimeoutMs := positiveInt (Json.field ship (js "mergeTimeoutMs")) defaults.mergeTimeoutMs
      judge := choiceOr (Json.field ship (js "judge")) defaults.judge }

/-- `"gateway"` is kept and `"direct"` clears it; absent means direct. -/
def backendField (value : Option Value) (fallback : Option ServiceBackend) :
    Option ServiceBackend :=
  let kept := if fallback = some .gateway then some .gateway else none
  match stringOf value with
  | some s => if s = js "direct" then none else if s = js "gateway" then some .gateway else kept
  | none => kept

/-- `url` is read from every layer; a project layer keeps `backend`. -/
def mergeSubstrate (parseUrl : Text → Option Url) (substrate : Option Record)
    (defaults : SubstrateConfig) (project : Bool) : SubstrateConfig :=
  match substrate with
  | none => defaults
  | some substrate =>
    let url := httpUrl parseUrl (Json.field substrate (js "url")) defaults.url
    let backend := if project then defaults.backend
      else backendField (Json.field substrate (js "backend")) defaults.backend
    { url, backend := if backend = some .gateway then some .gateway else none }

/-- `/^[a-z][a-z0-9-]{0,31}$/` -/
def seatPattern : Text → Bool
  | [] => false
  | head :: rest => isLowerLetter head && rest.length ≤ 31 &&
      rest.all fun u => isLowerLetter u || isDigit u || u = 0x2D

def maxServiceTimeoutMs : ℚ := 120000

def mergeGateway (gateway : Option Record) (defaults : GatewayConfig) (project : Bool) :
    GatewayConfig :=
  match gateway, project with
  | none, _ => defaults
  | some _, true => defaults
  | some gateway, false =>
    { url := urlAsWritten (Json.field gateway (js "url")) defaults.url
      seat := match stringOf (Json.field gateway (js "seat")) with
        | some s => if seatPattern s then s else defaults.seat
        | none => defaults.seat
      timeoutMs := intInRange (Json.field gateway (js "timeoutMs")) 1 maxServiceTimeoutMs
        defaults.timeoutMs }

def maxDecisionsTimeoutMs : ℚ := 30000

/-- The known points that an array names, each once, in order. -/
def pointsOf : Option Value → Option (List DecisionPoint)
  | some (.arr items) => some (items.filterMap fun item => choiceOf (some item)).eraseDups
  | _ => none

/-- A project layer may only turn `zdr` on and narrow `points`. -/
def mergeDecisions (decisions : Option Record) (defaults : DecisionsConfig) (project : Bool) :
    DecisionsConfig :=
  match decisions with
  | none => defaults
  | some decisions =>
    let points := match pointsOf (Json.field decisions (js "points")) with
      | some points => if project then defaults.points.filter (fun p => p ∈ points) else points
      | none => defaults.points
    let zdr := booleanOr (Json.field decisions (js "zdr")) defaults.zdr
    { enabled := true
      provider := choiceOr (Json.field decisions (js "provider")) defaults.provider
      model := nonEmpty (Json.field decisions (js "model")) defaults.model
      points
      timeoutMs := finiteOr (Json.field decisions (js "timeoutMs"))
        (fun q => 0 < q && q ≤ maxDecisionsTimeoutMs) defaults.timeoutMs
      zdr := if project then defaults.zdr || zdr else zdr
      planSkipBelow := unitInterval (Json.field decisions (js "planSkipBelow"))
        defaults.planSkipBelow
      shipVetoAtOrBelow := unitInterval (Json.field decisions (js "shipVetoAtOrBelow"))
        defaults.shipVetoAtOrBelow
      shipApproveAt := unitInterval (Json.field decisions (js "shipApproveAt"))
        defaults.shipApproveAt
      groundedAt := unitInterval (Json.field decisions (js "groundedAt")) defaults.groundedAt
      blockingAt := unitInterval (Json.field decisions (js "blockingAt")) defaults.blockingAt
      teachableBelow := unitInterval (Json.field decisions (js "teachableBelow"))
        defaults.teachableBelow
      teachableAutoAt := unitInterval (Json.field decisions (js "teachableAutoAt"))
        defaults.teachableAutoAt
      skillworthyAt := unitInterval (Json.field decisions (js "skillworthyAt"))
        defaults.skillworthyAt }

def isAlphanumeric (u : UInt16) : Bool := isUpperLetter u || isLowerLetter u || isDigit u

/-- `/^[A-Za-z0-9][A-Za-z0-9._-]{0,63}$/` -/
def hindsightBank : Text → Bool
  | [] => false
  | head :: rest => isAlphanumeric head && rest.length ≤ 63 &&
      rest.all fun u => isAlphanumeric u || u = 0x2E || u = 0x5F || u = 0x2D

/-- A project layer can only turn the memory server off. -/
def mergeHindsight (hindsight : Option Record) (defaults : HindsightConfig) (project : Bool) :
    HindsightConfig :=
  match hindsight with
  | none => defaults
  | some hindsight =>
    let enabled := booleanOr (Json.field hindsight (js "enabled")) defaults.enabled
    if project then { defaults with enabled := defaults.enabled && enabled }
    else
      { enabled
        url := urlAsWritten (Json.field hindsight (js "url")) defaults.url
        bank := match stringOf (Json.field hindsight (js "bank")) with
          | some s => if hindsightBank s then s else defaults.bank
          | none => defaults.bank
        timeoutMs := intInRange (Json.field hindsight (js "timeoutMs")) 1 maxServiceTimeoutMs
          defaults.timeoutMs
        retainTimeoutMs := intInRange (Json.field hindsight (js "retainTimeoutMs")) 1
          maxServiceTimeoutMs defaults.retainTimeoutMs
        backend := backendField (Json.field hindsight (js "backend")) defaults.backend }

def maxDatasetIds : Nat := 20

/-- An array of nonblank strings, trimmed, at most `maxDatasetIds`, each once. -/
def datasetIdsOf : Option Value → Option (List Text)
  | some (.arr items) =>
    match skillsOf (some (.arr items)) with
    | some ids => if ids.length ≤ maxDatasetIds then some ids.eraseDups else none
    | none => none
  | _ => none

/-- A project layer can only turn the search and the grounding off. -/
def mergeRagflow (ragflow : Option Record) (defaults : RagflowConfig) (project : Bool) :
    RagflowConfig :=
  match ragflow with
  | none => defaults
  | some ragflow =>
    let enabled := booleanOr (Json.field ragflow (js "enabled")) defaults.enabled
    let ground := booleanOr (Json.field ragflow (js "ground")) defaults.ground
    if project then
      { defaults with enabled := defaults.enabled && enabled, ground := defaults.ground && ground }
    else
      { enabled
        url := urlAsWritten (Json.field ragflow (js "url")) defaults.url
        datasetIds := (datasetIdsOf (Json.field ragflow (js "datasetIds"))).getD defaults.datasetIds
        topK := intInRange (Json.field ragflow (js "topK")) 1 20 defaults.topK
        similarityThreshold := unitInterval (Json.field ragflow (js "similarityThreshold"))
          defaults.similarityThreshold
        timeoutMs := intInRange (Json.field ragflow (js "timeoutMs")) 1 maxServiceTimeoutMs
          defaults.timeoutMs
        ground
        groundChars := intInRange (Json.field ragflow (js "groundChars")) 500 8000
          defaults.groundChars
        backend := backendField (Json.field ragflow (js "backend")) defaults.backend }

/-- `CAPTURE_MODES.indexOf` -/
def CaptureMode.rank : CaptureMode → Nat
  | .explicit => 0
  | .observe => 1
  | .auto => 2

/-- A project layer can only turn switches off and lower `capture`. -/
def mergeTeach (teach : Option Record) (defaults : TeachConfig) (project : Bool) : TeachConfig :=
  match teach with
  | none => defaults
  | some teach =>
    let enabled := booleanOr (Json.field teach (js "enabled")) defaults.enabled
    let «recall» := booleanOr (Json.field teach (js "recall")) defaults.«recall»
    let autoPromote := booleanOr (Json.field teach (js "autoPromote")) defaults.autoPromote
    let requested : Option CaptureMode := choiceOf (Json.field teach (js "capture"))
    if project then
      { defaults with
        enabled := defaults.enabled && enabled
        capture := match requested with
          | some mode => if mode.rank < defaults.capture.rank then mode else defaults.capture
          | none => defaults.capture
        «recall» := defaults.«recall» && «recall»
        autoPromote := defaults.autoPromote && autoPromote }
    else
      { enabled
        capture := requested.getD defaults.capture
        «recall»
        recallLimit := intInRange (Json.field teach (js "recallLimit")) 1 10 defaults.recallLimit
        recallChars := intInRange (Json.field teach (js "recallChars")) 500 8000
          defaults.recallChars
        promoteAfter := intInRange (Json.field teach (js "promoteAfter")) 2 20
          defaults.promoteAfter
        autoPromote
        observeMinToolCalls := intInRange (Json.field teach (js "observeMinToolCalls")) 0 50
          defaults.observeMinToolCalls
        timeoutMs := intInRange (Json.field teach (js "timeoutMs")) 500 30000 defaults.timeoutMs }

def mergeState (state : Option Record) (defaults : StateConfig) (project : Bool) : StateConfig :=
  match state, project with
  | none, _ => defaults
  | some _, true => defaults
  | some state, false =>
    { retentionDays := intInRange (Json.field state (js "retentionDays")) 0 3650
        defaults.retentionDays }

def absolutePathField (value : Option Value) (fallback : Option Text) : Option Text :=
  match stringOf value with
  | some s => if (trim s).head? = some 0x2F then some (trim s) else fallback
  | none => fallback

/-- The known stages that hold an array, with its strings. -/
def pstackMapping (mapping : Option Value) :
    Option (OrderedMap PstackMappingStage (List Text)) :=
  match asRecord mapping with
  | none => none
  | some record =>
    let merged := (Choice.all : List PstackMappingStage).foldl (fun m stage =>
      match Json.field record (Choice.text stage) with
      | some (.arr items) => m.set stage (items.filterMap fun item => stringOf (some item))
      | _ => m) OrderedMap.empty
    if merged.size = 0 then none else some merged

def mergePstack (pstack : Option Record) (defaults : PstackConfig) (project : Bool) :
    PstackConfig :=
  match pstack, project with
  | none, _ => defaults
  | some _, true => defaults
  | some pstack, false =>
    { enabled := booleanOr (Json.field pstack (js "enabled")) defaults.enabled
      cursorDir := absolutePathField (Json.field pstack (js "cursorDir")) defaults.cursorDir
      mapping := match pstackMapping (Json.field pstack (js "mapping")) with
        | some mapping => some (mapping.entries.foldl (fun m e => m.set e.1 e.2)
            (defaults.mapping.getD .empty))
        | none => defaults.mapping
      contextCapChars := some (positiveInt (Json.field pstack (js "contextCapChars"))
        (defaults.contextCapChars.getD 2000)) }

def mergeSwarm (swarm : Option Record) (defaults : SwarmConfig) (project : Bool) : SwarmConfig :=
  match swarm, project with
  | none, _ => defaults
  | some _, true => defaults
  | some swarm, false =>
    { autoRun := booleanOr (Json.field swarm (js "autoRun")) defaults.autoRun }

/-- One layer onto `base`; `project` marks the file that a repository controls. -/
def mergeConfig (parseUrl : Text → Option Url) (file : Option Record) (base : UltrathinkConfig)
    (project : Bool) : UltrathinkConfig :=
  match file with
  | none => base
  | some file =>
    let part (name : String) := asRecord (Json.field file (js name))
    { uplift := mergeUplift (part "uplift") base.uplift
      claude := mergeClaude (part "claude") base.claude project
      grok := mergeGrok parseUrl (part "grok") base.grok project
      muse := mergeMuse (part "muse") base.muse project
      hitl := mergeHitl (part "hitl") base.hitl
      think := mergeThink (part "think") base.think
      notion := mergeNotion (part "notion") base.notion
      linear := mergeLinear (part "linear") base.linear
      track := mergeTrack (part "track") base.track
      ship := mergeShip (part "ship") base.ship
      substrate := mergeSubstrate parseUrl (part "substrate") base.substrate project
      decisions := mergeDecisions (part "decisions") base.decisions project
      hindsight := mergeHindsight (part "hindsight") base.hindsight project
      ragflow := mergeRagflow (part "ragflow") base.ragflow project
      gateway := mergeGateway (part "gateway") base.gateway project
      teach := mergeTeach (part "teach") base.teach project
      state := mergeState (part "state") base.state project
      pstack := mergePstack (part "pstack") base.pstack project
      swarm := mergeSwarm (part "swarm") base.swarm project
      models := mergeModels (part "models") base.models
      modelProvenance := {
        claude := modelPin (part "claude") base.modelProvenance.claude true
        grok := modelPin (part "grok") base.modelProvenance.grok false
        muse := modelPin (part "muse") base.modelProvenance.muse true } }

/-- A path merges as a user layer; the project file is marked. -/
inductive ConfigSource where
  | user (path : Text)
  | project (path : Text)

/-- The files in order, later ones winning, over the defaults. -/
def loadConfig (parseUrl : Text → Option Url) (readJson : Text → Option Value)
    (files : List ConfigSource) : UltrathinkConfig :=
  files.foldl (fun config file =>
    match file with
    | .user path => mergeConfig parseUrl (asRecord (readJson path)) config false
    | .project path => mergeConfig parseUrl (asRecord (readJson path)) config true) defaultConfig

end Ultrathink.Source.Config
