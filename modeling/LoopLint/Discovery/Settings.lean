import LoopLint.Log.Entry
import LoopLint.Settings.Basic

/-!
# Finding settings

For each path the directories from the path upwards are searched for a settings file, up to the root
or to the user's own directory.  A directory that was searched for an earlier path ends the search,
since all above it was searched then.  Where the search finds nothing, the user's own settings are
taken, once.
-/

namespace LoopLint

/-- Settings and where they come from. -/
structure FoundSettings where
  directory : Path
  settings : Settings
  file : Option Path
deriving DecidableEq, Repr

namespace FoundSettings

/-- The directory of the user's own settings. -/
def userDirectory? (env : Environment) : Option Path :=
  let home := (env.value? "HOME").map (fun h => Path.join ⟨h⟩ ⟨".config"⟩)
  let base : Option Path := match env.value? "XDG_CONFIG_HOME" with
    | some d => if Path.isAbsolute ⟨d⟩ then some ⟨d⟩ else home
    | none => home
  base.map (·.join ⟨"forof"⟩)

/-- Searches some directories in turn, and gives the first one with a settings file together with
that file.  The directories that were searched are added to those searched before. -/
def climb (env : Environment) (user : Option Path) (seen : List Path) :
    List Path → Option (Path × Path) × List Path
  | [] => (none, seen)
  | d :: ds =>
    if seen.any d.same then (none, seen)
    else match Settings.fileIn? env d with
      | some file => (some (d, file), d :: seen)
      | none => if user.any d.same then (none, d :: seen) else climb env user (d :: seen) ds

/-- The user's own settings file, if the user's directory was not searched yet. -/
def fallback (env : Environment) (user : Option Path) (seen : List Path) :
    Option (Path × Path) × List Path :=
  match user with
  | none => (none, seen)
  | some u =>
    if seen.any u.same then (none, seen)
    else ((Settings.fileIn? env u).map (fun file => (u, file)), u :: seen)

/-- The settings in a file of a directory. -/
def load (env : Environment) (directory file : Path) : Except SettingsError FoundSettings :=
  (Settings.read env file).map fun s =>
    { directory, settings := s.getD Settings.unset, file := some file }

/-- Loads settings, then goes on. -/
def loadThen (env : Environment) (origin : String) (place : Path × Path)
    (next : Logged (Except SettingsError (List FoundSettings))) :
    Logged (Except SettingsError (List FoundSettings)) := do
  Logged.say .debug .discovery ("Using " ++ origin ++ " file " ++ place.2.text)
  match load env place.1 place.2 with
  | .error e => pure (.error e)
  | .ok s => do
    let rest ← next
    pure (rest.map (s :: ·))

/-- The settings for some paths from the root, in the order of the paths. -/
def discoverFrom (env : Environment) (user : Option Path) (seen : List Path) :
    List Path → Logged (Except SettingsError (List FoundSettings))
  | [] => pure (.ok [])
  | p :: ps =>
    match climb env user seen p.ancestors with
    | (some place, seen) => loadThen env "configuration" place (discoverFrom env user seen ps)
    | (none, seen) =>
      match fallback env user seen with
      | (some place, seen) =>
        loadThen env "user configuration" place (discoverFrom env user seen ps)
      | (none, seen) => discoverFrom env user seen ps

/-- The settings for some paths. -/
def discover (env : Environment) (paths : List Path) :
    Logged (Except SettingsError (List FoundSettings)) :=
  discoverFrom env (userDirectory? env) [] (paths.map env.normalize)

/-- The name that settings go by. -/
def label (s : FoundSettings) : String :=
  (s.file.getD s.directory).text

/-- The settings that are used: the first ones.  All others are mentioned and left out. -/
def choose : List FoundSettings → Logged (Option FoundSettings)
  | [] => pure none
  | first :: rest =>
    ⟨some first, rest.filterMap fun s => s.file.map fun file =>
      ⟨.warn, .config, "Ignoring configuration file " ++ file.text ++ " because " ++ first.label ++
        " is already used"⟩⟩

end FoundSettings
end LoopLint
