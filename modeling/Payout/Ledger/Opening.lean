import Payout.Ledger.Store
import Payout.Settings.Basic

/-!
# Opening a ledger

Settings name the backend of the ledger and say where it is kept.
-/

namespace Payout.Ledger

/-- Where a document is kept unless settings say otherwise. -/
def defaultPath : String := "./data/ledger.json"

/-- The path that a backend is told; anything but text under `path` does not count. -/
def pathOf (config : Toml) : String :=
  match config with
  | .table members =>
    match members.lookup "path" with
    | some (.string path) => path
    | _ => defaultPath
  | _ => defaultPath

def Backend.ofName? (name : String) (config : Toml) : Option Backend :=
  if name = "memory" then some .memory
  else if name = "file" then some (.file (pathOf config))
  else none

end Payout.Ledger
