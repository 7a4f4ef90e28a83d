import Ultrathink.Source.Think.Graph
import Ultrathink.Source.Hitl.Format

/-!
# Blocks injected into a spec

Where `injectGraphXml` and `injectClarificationsXml` put their block and what they leave of the
spec.
-/

namespace Ultrathink.Guarantees.SpecInjection

open List Library JsText Regex Source.Uplift.Xml Source.Think.Graph Source.Hitl.Format

end Ultrathink.Guarantees.SpecInjection
