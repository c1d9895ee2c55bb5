import IkelyaneMonitor.Saas.Probe

/-!
# Webhook targets (`lib/notify/http.ts`)

* `webhookUrlAllowed` : the check of a webhook's URL when a rule is saved.
-/

namespace IkelyaneMonitor.Notify
open Net (assertLiteralTargetAllowed)

section Webhooks
variable {URL : Type} (web : Saas.Platform URL)

/-- `localhost`, or a name under it. -/
def isLocalhost (host : String) : Bool := host == "localhost" || decide (".localhost".toList <:+ host.toList)

def webhookUrlAllowed (rawUrl : String) (allowPrivateTargets : Bool) : Bool :=
  match web.parse rawUrl none with
  | none => false
  | some url =>
    if web.protocol url ≠ "https:" ∧ web.protocol url ≠ "http:" then false
    else if !allowPrivateTargets && isLocalhost (web.hostname url).toLower then false
    else
      match assertLiteralTargetAllowed web.isIP (web.hostname url) allowPrivateTargets with
      | .error _ => false
      | .ok _ => true

end Webhooks

end IkelyaneMonitor.Notify
