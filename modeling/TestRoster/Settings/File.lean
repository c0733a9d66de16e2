import TestRoster.Run.Session
import TestRoster.Settings.Basic

/-!
The file of settings. Where there is none, an empty one is made.
-/
namespace TestRoster

namespace Act

def defaultSettingsFile : Act Path := do
  return (Path.ofString (← get).homes.programDirectory).child "config"

def loadSettings (given : Option Path) : Act Settings := do
  let p ← match given with
    | some p => pure p
    | none => defaultSettingsFile
  record .debug ("Loading config from " ++ p.toString)
  let s ← get
  if s.files.exists' p then
    let (settings, log) := Settings.ofText s.homes s.library.settings (← readText p)
    recordAll log
    return settings
  else
    changeFiles fun fs => fs.ensureDirectories p.parent
    changeFiles fun fs => fs.append p []
    return Settings.default s.homes

end Act

end TestRoster
