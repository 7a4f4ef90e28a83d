import Ultrathink.Library.OrderedMap
import Ultrathink.Library.JsText
import Mathlib.Data.Rat.Floor

/-!
# The configuration record

The sections of `UltrathinkConfig` (`config.ts` and the `types.ts` files it
imports) with their defaults. A number is the rational that its double denotes:
every number a merge keeps is finite.
-/

namespace Ultrathink.Source.Config

open Library JsText

/-- A closed set of strings that a config value may name. -/
class Choice (α : Type) where
  all : List α
  text : α → Text

structure UpliftConfig where
  enabled : Bool
  skipTrivial : Bool
  maxChars : ℚ
  echo : Bool

structure ClaudeConfig where
  bin : Text
  model : Text
  thinking : Bool
  settingSources : Text
  callTimeoutMs : ℚ
  budgetMs : ℚ
  concurrency : ℚ
  echo : Bool

inductive GrokEffort where
  | low | medium | high | xhigh
deriving DecidableEq

instance : Choice GrokEffort where
  all := [.low, .medium, .high, .xhigh]
  text
    | .low => js "low"
    | .medium => js "medium"
    | .high => js "high"
    | .xhigh => js "xhigh"

inductive GrokTransport where
  | http | cli | shunt
deriving DecidableEq

instance : Choice GrokTransport where
  all := [.http, .cli, .shunt]
  text
    | .http => js "http"
    | .cli => js "cli"
    | .shunt => js "shunt"

structure GrokConfig where
  enabled : Bool
  baseUrl : Text
  model : Text
  reasoningEffort : GrokEffort
  transport : GrokTransport
  bin : Text
  home : Text
  callTimeoutMs : ℚ
  fallbackToClaude : Bool
  shuntBaseUrl : Text
  shuntModel : Text
  shuntMaxTokens : ℚ

inductive MuseEffort where
  | none | minimal | low | medium | high | xhigh | max | ultra
deriving DecidableEq

instance : Choice MuseEffort where
  all := [.none, .minimal, .low, .medium, .high, .xhigh, .max, .ultra]
  text
    | .none => js "none"
    | .minimal => js "minimal"
    | .low => js "low"
    | .medium => js "medium"
    | .high => js "high"
    | .xhigh => js "xhigh"
    | .max => js "max"
    | .ultra => js "ultra"

structure MuseConfig where
  bin : Text
  model : Text
  reasoningEffort : MuseEffort
  callTimeoutMs : ℚ

structure HitlConfig where
  enabled : Bool
  maxQuestions : ℚ
  knowledgeBase : Bool

inductive ThinkEngine where
  | auto | claude | grok | muse
deriving DecidableEq

instance : Choice ThinkEngine where
  all := [.auto, .claude, .grok, .muse]
  text
    | .auto => js "auto"
    | .claude => js "claude"
    | .grok => js "grok"
    | .muse => js "muse"

structure ThinkConfig where
  enabled : Bool
  minNodes : ℚ
  maxNodes : ℚ
  engine : ThinkEngine

structure NotionConfig where
  dataSourceUrl : Text

structure LinearConfig where
  team : Text

structure TrackConfig where
  enabled : Bool
  budgetMs : ℚ
  concurrency : ℚ

inductive MergeMethod where
  | squash | merge | rebase
deriving DecidableEq

instance : Choice MergeMethod where
  all := [.squash, .merge, .rebase]
  text
    | .squash => js "squash"
    | .merge => js "merge"
    | .rebase => js "rebase"

inductive JudgeMode where
  | gate | advisory
deriving DecidableEq

instance : Choice JudgeMode where
  all := [.gate, .advisory]
  text
    | .gate => js "gate"
    | .advisory => js "advisory"

structure ShipConfig where
  enabled : Bool
  autoMerge : Bool
  skills : List Text
  minScore : ℚ
  requireNoComments : Bool
  maxRounds : ℚ
  mergeMethod : MergeMethod
  deleteBranch : Bool
  greptileOrganization : Text
  reviewTimeoutMs : ℚ
  pollMs : ℚ
  waitMs : ℚ
  reviewRetries : ℚ
  mergeTimeoutMs : ℚ
  judge : JudgeMode

inductive ServiceBackend where
  | direct | gateway
deriving DecidableEq

structure SubstrateConfig where
  url : Text
  backend : Option ServiceBackend

structure GatewayConfig where
  url : Text
  seat : Text
  timeoutMs : ℚ

inductive DecisionPoint where
  | plan | ship | knowledge | blocking | teachable | skillworthy
deriving DecidableEq

instance : Choice DecisionPoint where
  all := [.plan, .ship, .knowledge, .blocking, .teachable, .skillworthy]
  text
    | .plan => js "plan"
    | .ship => js "ship"
    | .knowledge => js "knowledge"
    | .blocking => js "blocking"
    | .teachable => js "teachable"
    | .skillworthy => js "skillworthy"

inductive DecisionsProvider where
  | auto | openrouter | vercel
deriving DecidableEq

instance : Choice DecisionsProvider where
  all := [.auto, .openrouter, .vercel]
  text
    | .auto => js "auto"
    | .openrouter => js "openrouter"
    | .vercel => js "vercel"

structure DecisionsConfig where
  enabled : Bool
  provider : DecisionsProvider
  model : Text
  points : List DecisionPoint
  timeoutMs : ℚ
  zdr : Bool
  planSkipBelow : ℚ
  shipVetoAtOrBelow : ℚ
  shipApproveAt : ℚ
  groundedAt : ℚ
  blockingAt : ℚ
  teachableBelow : ℚ
  teachableAutoAt : ℚ
  skillworthyAt : ℚ

structure HindsightConfig where
  enabled : Bool
  url : Text
  bank : Text
  timeoutMs : ℚ
  retainTimeoutMs : ℚ
  backend : Option ServiceBackend

structure RagflowConfig where
  enabled : Bool
  url : Text
  datasetIds : List Text
  topK : ℚ
  similarityThreshold : ℚ
  timeoutMs : ℚ
  ground : Bool
  groundChars : ℚ
  backend : Option ServiceBackend

/-- Lowest first. -/
inductive CaptureMode where
  | explicit | observe | auto
deriving DecidableEq

instance : Choice CaptureMode where
  all := [.explicit, .observe, .auto]
  text
    | .explicit => js "explicit"
    | .observe => js "observe"
    | .auto => js "auto"

structure TeachConfig where
  enabled : Bool
  capture : CaptureMode
  «recall» : Bool
  recallLimit : ℚ
  recallChars : ℚ
  promoteAfter : ℚ
  autoPromote : Bool
  observeMinToolCalls : ℚ
  timeoutMs : ℚ

structure StateConfig where
  retentionDays : ℚ

/-- The stages a user mapping may remap, in the order the merge reads them. -/
inductive PstackMappingStage where
  | discuss | plan | execute | review
deriving DecidableEq

instance : Choice PstackMappingStage where
  all := [.discuss, .plan, .execute, .review]
  text
    | .discuss => js "discuss"
    | .plan => js "plan"
    | .execute => js "execute"
    | .review => js "review"

structure PstackConfig where
  enabled : Bool
  cursorDir : Option Text
  mapping : Option (OrderedMap PstackMappingStage (List Text))
  contextCapChars : Option ℚ

structure SwarmConfig where
  autoRun : Bool

inductive HostId where
  | claudeCode | grokBuild | hermes | muse | omp | primeAgent | cursor
deriving DecidableEq

instance : Choice HostId where
  all := [.claudeCode, .grokBuild, .hermes, .muse, .omp, .primeAgent, .cursor]
  text
    | .claudeCode => js "claude-code"
    | .grokBuild => js "grok-build"
    | .hermes => js "hermes"
    | .muse => js "muse"
    | .omp => js "omp"
    | .primeAgent => js "prime-agent"
    | .cursor => js "cursor"

structure HostModelOverride where
  provider : Text
  model : Text

structure ModelsConfig where
  hosts : OrderedMap HostId HostModelOverride
  providerDefaults : OrderedMap Text Text

inductive LegacyModelProvenance where
  | routeDefault | filePin | explicitBlank
deriving DecidableEq

structure ModelProvenance where
  claude : LegacyModelProvenance
  grok : LegacyModelProvenance
  muse : LegacyModelProvenance

structure UltrathinkConfig where
  uplift : UpliftConfig
  claude : ClaudeConfig
  grok : GrokConfig
  muse : MuseConfig
  hitl : HitlConfig
  think : ThinkConfig
  notion : NotionConfig
  linear : LinearConfig
  track : TrackConfig
  ship : ShipConfig
  substrate : SubstrateConfig
  decisions : DecisionsConfig
  hindsight : HindsightConfig
  ragflow : RagflowConfig
  gateway : GatewayConfig
  teach : TeachConfig
  state : StateConfig
  pstack : PstackConfig
  swarm : SwarmConfig
  models : ModelsConfig
  modelProvenance : ModelProvenance

def defaultConfig : UltrathinkConfig where
  uplift := { enabled := true, skipTrivial := true, maxChars := 20000, echo := true }
  claude := {
    bin := js "claude", model := js "sonnet", thinking := false, settingSources := []
    callTimeoutMs := 0, budgetMs := 0, concurrency := 3, echo := true }
  grok := {
    enabled := true, baseUrl := js "https://cli-chat-proxy.grok.com/v1", model := js "grok-4.7"
    reasoningEffort := .xhigh, transport := .http, bin := js "grok", home := []
    callTimeoutMs := 0, fallbackToClaude := false, shuntBaseUrl := [], shuntModel := []
    shuntMaxTokens := 8192 }
  muse := {
    bin := js "muse", model := js "muse-spark-1.3-contributor", reasoningEffort := .high
    callTimeoutMs := 0 }
  hitl := { enabled := true, maxQuestions := 4, knowledgeBase := false }
  think := { enabled := true, minNodes := 5, maxNodes := 8, engine := .auto }
  notion := { dataSourceUrl := [] }
  linear := { team := [] }
  track := { enabled := true, budgetMs := 60000, concurrency := 6 }
  ship := {
    enabled := false, autoMerge := false, skills := [js "gsd-"], minScore := 5
    requireNoComments := true, maxRounds := 5, mergeMethod := .squash, deleteBranch := false
    greptileOrganization := [], reviewTimeoutMs := 1200000, pollMs := 20000, waitMs := 100000
    reviewRetries := 3, mergeTimeoutMs := 3600000, judge := .gate }
  substrate := { url := [], backend := none }
  decisions := {
    enabled := true, provider := .auto, model := js "~typesafe/jev-latest"
    points := [.plan, .ship, .knowledge, .blocking, .teachable, .skillworthy]
    timeoutMs := 3000, zdr := true, planSkipBelow := 2 / 10, shipVetoAtOrBelow := 2 / 10
    shipApproveAt := 7 / 10, groundedAt := 8 / 10, blockingAt := 5 / 10
    teachableBelow := 3 / 10, teachableAutoAt := 8 / 10, skillworthyAt := 5 / 10 }
  hindsight := {
    enabled := false, url := [], bank := js "ultrathink", timeoutMs := 5000
    retainTimeoutMs := 15000, backend := none }
  ragflow := {
    enabled := false, url := [], datasetIds := [], topK := 5, similarityThreshold := 2 / 10
    timeoutMs := 8000, ground := false, groundChars := 3000, backend := none }
  gateway := { url := [], seat := js "lead", timeoutMs := 8000 }
  teach := {
    enabled := true, capture := .auto, «recall» := true, recallLimit := 5, recallChars := 3000
    promoteAfter := 3, autoPromote := true, observeMinToolCalls := 4, timeoutMs := 2500 }
  state := { retentionDays := 0 }
  pstack := { enabled := false, cursorDir := none, mapping := none, contextCapChars := some 2000 }
  swarm := { autoRun := false }
  models := { hosts := .empty, providerDefaults := .empty }
  modelProvenance := { claude := .routeDefault, grok := .routeDefault, muse := .routeDefault }

end Ultrathink.Source.Config
