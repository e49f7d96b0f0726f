import OptionHost.Session
import OptionHost.Settings.Admission
import OptionHost.Settings.Loading

/-!
# Starting a host

From loaded settings to a host with a ready store, whose journal is kept at the level of the
settings.
-/

namespace OptionHost.Startup

/-- Sets the level and makes the store ready. -/
def begin (s : Settings) : Act Unit := do
  Session.setLevel s.logging.toLevel
  Act.startStore

/-- A host started on its settings, with what was written to its journal on the way. -/
def start (s : Settings) : Report Host :=
  match s.options.toRaw.build with
  | .error fault => Report.fail fault
  | .ok store =>
    match begin s (Host.ofStore store) with
    | some (.ok (), h) => ⟨h.records, .ok h⟩
    | some (.error r, h) => ⟨h.records, .error r.fault⟩
    | none => Report.pure (Host.ofStore store)

/-- Loads the settings and starts a host on them. -/
def run (sources : Settings.Sources) : Loading (Settings × Host) := do
  let s ← Settings.load sources
  return (s, ← Loading.ofReport (start s))

end OptionHost.Startup
