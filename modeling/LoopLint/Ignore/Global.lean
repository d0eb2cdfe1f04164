import LoopLint.Ignore.File

/-!
# The user's own ignore file

The configuration of git may name a file with ignore rules for all repositories of a user, in a line
`excludesFile = path`.  The configuration is the file that `GIT_CONFIG_GLOBAL` names; without that
variable it is `.gitconfig` of the home directory, then `git/config` of the configuration directory.
If no file is named, it is `git/ignore` of the configuration directory.
-/

namespace LoopLint.GitConfig

/-- The blanks between words. -/
def isSpace (b : UInt8) : Bool :=
  b == 32 || (9 ≤ b && b ≤ 13)

/-- The text behind a word, in which upper and lower case are the same. -/
def dropWord? : List UInt8 → List UInt8 → Option (List UInt8)
  | bs, [] => some bs
  | [], _ :: _ => none
  | b :: bs, w :: ws =>
    let lower := if 65 ≤ b ∧ b ≤ 90 then b + 32 else b
    if lower = w then dropWord? bs ws else none

/-- The word that names the file. -/
def keyword : List UInt8 := "excludesfile".toUTF8.toList

/-- The double quote. -/
def quoteMark : UInt8 := 34

/-- Whether a line may end here, with blanks before the end. -/
def endsLine (bs : List UInt8) : Bool :=
  (bs.takeWhile isSpace).contains 10 || (bs.dropWhile isSpace).isEmpty

/-- Whether a line may end here, with blanks and a quote before the end. -/
def endsValue (bs : List UInt8) : Bool :=
  endsLine bs ||
    match bs.dropWhile isSpace with
    | b :: rest => b == quoteMark && endsLine rest
    | [] => false

/-- The shortest value that ends well. -/
def shortestValue? : List UInt8 → Option (List UInt8)
  | [] => none
  | b :: bs =>
    if isSpace b then none
    else if endsValue bs then some [b]
    else (shortestValue? bs).map (b :: ·)

/-- The value behind the equals sign, perhaps between quotes. -/
def value? (bs : List UInt8) : Option (List UInt8) :=
  let plain := shortestValue? bs
  match bs with
  | b :: rest =>
    if b = quoteMark then (shortestValue? (rest.dropWhile isSpace)).or plain else plain
  | [] => none

/-- The value of the setting, if it starts on this line. -/
def setting? (bs : List UInt8) : Option (List UInt8) :=
  (dropWord? (bs.dropWhile isSpace) keyword).bind fun rest =>
    match rest.dropWhile isSpace with
    | 61 :: rest => value? (rest.dropWhile isSpace)
    | _ => none

/-- The first value of the setting, looked for at each start of a line. -/
def findSetting? (atStart : Bool) : List UInt8 → Option (List UInt8)
  | [] => none
  | b :: bs =>
    match if atStart then setting? (b :: bs) else none with
    | some v => some v
    | none => findSetting? (b == 10) bs

/-- The file that a configuration names.  Each `~` stands for the home directory. -/
def excludesFile? (home : Option String) (config : ByteArray) : Option Path :=
  (findSetting? true config.toList).bind fun v =>
    (String.fromUTF8? ⟨v.toArray⟩).map fun s =>
      match home with
      | none => ⟨s⟩
      | some h => ⟨String.ofList (s.toList.flatMap (fun c => if c = '~' then h.toList else [c]))⟩

/-- The directory for the user's configuration files. -/
def directory? (env : Environment) : Option Path :=
  match env.value? "XDG_CONFIG_HOME" with
  | some "" | none => (env.value? "HOME").map (fun h => Path.join ⟨h⟩ ⟨".config"⟩)
  | some d => some ⟨d⟩

/-- The files that hold the configuration, the one that counts most first. -/
def configFiles (env : Environment) : List Path :=
  match env.value? "GIT_CONFIG_GLOBAL" with
  | some p => [⟨p⟩]
  | none =>
    ((env.value? "HOME").map (fun h => Path.join ⟨h⟩ ⟨".gitconfig"⟩)).toList ++
      ((directory? env).map (·.join ⟨"git/config"⟩)).toList

/-- The path of the user's ignore file. -/
def globalIgnorePath? (env : Environment) : Option Path :=
  let named (config : Path) : Option Path :=
    (env.readBytes config).toOption.bind (excludesFile? (env.value? "HOME"))
  ((configFiles env).findSome? named).or ((directory? env).map (·.join ⟨"git/ignore"⟩))

/-- The user's own rules.  They are placed in the working directory. -/
def globalRules (env : Environment) : IgnoreRules :=
  let place := env.directory.getD ⟨""⟩
  match globalIgnorePath? env with
  | none => ⟨place, []⟩
  | some p => if env.isFile p then ⟨place, (IgnoreFile.read env p).rules⟩ else ⟨place, []⟩

end LoopLint.GitConfig
