/-
# Git configurations as the preflight reads them

Source: the functions on configuration entries in
`crates/thinws-adapter-git-cli/src/git_query/inspect.rs`: `parse_config_output` to
`known_core_key`, `is_false`, `effective_config_bool`, `environment_disables`,
`resolve_attributes_source` and `default_user_attributes`.

A configuration is the list of its entries in the order they are read in.
-/

import ThinWorkspace.Core.Components
import ThinWorkspace.Core.Status
import ThinWorkspace.Lib.Lexicographic
import ThinWorkspace.Ports.Bootstrap

namespace ThinWorkspace
namespace Git

open ThinWorkspace.Core Ports Lib.Fallible Lib.Lexicographic

/-! ### Bytes

Case folding is that of ASCII, on single bytes. -/

/-- `to_ascii_lowercase` of a byte: only the twenty-six capital letters change. -/
def lowerByte (byte : UInt8) : UInt8 :=
  if 65 ≤ byte.toNat ∧ byte.toNat ≤ 90 then byte + 32 else byte

/-- `make_ascii_lowercase`: byte by byte, so that the length stays. -/
def lowercase (value : List UInt8) : List UInt8 := value.map lowerByte

/-- `eq_ignore_ascii_case`: the words of a Boolean are recognized in any case. -/
def eqIgnoreAsciiCase (value other : List UInt8) : Bool := lowercase value == lowercase other

/-- The order of an `OsStr`, which is that of its bytes. -/
def bytesLe : List UInt8 → List UInt8 → Bool := lex fun a b => decide (a.toNat ≤ b.toNat)

/-- The order of texts, byte by byte, is a linear one. -/
theorem linearLe_bytesLe : LinearLe bytesLe := linearLe_byte.lex

/-! ### Entries

A record of a listing is cut at its first line feed, and its key is folded in the section
and in the variable, not in the subsection between them. -/

/-- `ConfigEntry`: a key with its section and name in lower case, and the value as Git printed it.
-/
structure ConfigEntry where
  key : List UInt8
  value : List UInt8
deriving DecidableEq

/-- `normalize_config_key`: the section and the variable in lower case, what stands
between them as it is. -/
def normalizeConfigKey (key : List UInt8) : List UInt8 :=
  let first := key.takeWhile (· ≠ 46)
  let last := key.rtakeWhile (· ≠ 46)
  if key.count 46 ≤ 1 then lowercase key
  else lowercase first ++ (key.drop first.length).rdrop last.length ++ lowercase last

/-- One record of `parse_config_output`: a key, a newline and a value.  A record without a newline
is refused, since its key would have no value. -/
def parseConfigRecord (record : List UInt8) : Except GitInspectionIssue ConfigEntry :=
  if record = [] then .error .invalidGitOutput
  else
    match Lib.Fields.cut 10 record with
    | none => .error .invalidGitOutput
    | some (key, value) =>
      if key = [] then .error .invalidGitOutput
      else .ok ⟨normalizeConfigKey key, value⟩

/-- `parse_config_output`: records that each end in a zero byte, or no output at all; one bad
record refuses the whole. -/
def parseConfigOutput (output : List UInt8) : Except GitInspectionIssue (List ConfigEntry) :=
  if output = [] then .ok []
  else if output.getLast? ≠ some 0 then .error .invalidGitOutput
  else (output.dropLast.splitOn 0).mapM parseConfigRecord

/-! ### Filter drivers

A driver is what stands between the section `filter` and one of the variables of a driver.
-/

/-- The variables of a filter driver, as they end a key. -/
def filterFields : List (List UInt8) :=
  [ascii ".clean", ascii ".smudge", ascii ".process", ascii ".required"]

/-- `filter_driver`: the driver of a key in the section `filter`, if its name is one of the known
variables. -/
def filterDriver (key : List UInt8) : Except GitInspectionIssue (Option (List UInt8)) :=
  match key.dropPrefix? (ascii "filter.") with
  | none => .ok none
  | some filterKey =>
    match filterFields.findSome? filterKey.dropSuffix? with
    | none => .error .unsupportedConfiguration
    | some driver =>
      if driver = [] then .error .unsupportedConfiguration else .ok (some driver)

/-- `filter_drivers`: the drivers of a configuration, sorted and each of them once. -/
def filterDrivers (entries : List ConfigEntry) : Except GitInspectionIssue (List (List UInt8)) := do
  let drivers ← entries.mapM fun entry => filterDriver entry.key
  pure (sortDedup bytesLe drivers.reduceOption)

/-! ### Booleans

Two functions of the source read a Boolean, and they treat the empty value differently.
Both are kept as they stand. -/

/-- `is_false`: the four words that Git reads as false, without the empty value. -/
def isFalse (value : List UInt8) : Bool :=
  eqIgnoreAsciiCase value (ascii "false") || eqIgnoreAsciiCase value (ascii "no") ||
    value == ascii "0" || eqIgnoreAsciiCase value (ascii "off")

/-- The texts that `effective_config_bool` and `environment_disables` both take as true. -/
def isTrue (value : List UInt8) : Bool :=
  eqIgnoreAsciiCase value (ascii "true") || eqIgnoreAsciiCase value (ascii "yes") ||
    eqIgnoreAsciiCase value (ascii "on") || value == ascii "1"

/-- The last entry with the key, since a later one overrides an earlier one. -/
def lastConfigEntry (entries : List ConfigEntry) (key : List UInt8) : Option ConfigEntry :=
  entries.reverse.find? fun entry => entry.key == key

/-- `effective_config_bool`: what Git would read from the whole configuration.  A value that is no
Boolean is refused, and an empty one is read as true. -/
def effectiveConfigBool (entries : List ConfigEntry) (key : List UInt8) :
    Except GitInspectionIssue Bool :=
  match lastConfigEntry entries key with
  | none => .ok false
  | some entry =>
    if entry.value = [] ∨ isTrue entry.value then .ok true
    else if isFalse entry.value then .ok false
    else .error .unsupportedConfiguration

/-- `environment_disables`: the value of a variable of the environment, where an empty one is read
as false. -/
def environmentDisables : Option (List UInt8) → Except GitInspectionIssue Bool
  | none => .ok false
  | some value =>
    if value = [] ∨ isFalse value then .ok false
    else if isTrue value then .ok true
    else .error .environmentUnsupported

/-! ### Settings that are refused

A configuration is accepted entry by entry.  The refused settings are those by which Git
would read or run something that the preflight did not check. -/

/-- `known_core_key`: the names of the section `core` that the preflight understands; any other is
refused. -/
def knownCoreKey (key : List UInt8) : Bool :=
  [ascii "core.attributesfile", ascii "core.autocrlf", ascii "core.bare",
    ascii "core.checkstat", ascii "core.eol", ascii "core.excludesfile",
    ascii "core.filemode", ascii "core.fsmonitor", ascii "core.hookspath",
    ascii "core.ignorecase", ascii "core.longpaths", ascii "core.logallrefupdates",
    ascii "core.precomposeunicode", ascii "core.protecthfs", ascii "core.protectntfs",
    ascii "core.quotepath", ascii "core.repositoryformatversion", ascii "core.safecrlf",
    ascii "core.sharedrepository", ascii "core.sparsecheckout",
    ascii "core.sparsecheckoutcone", ascii "core.splitindex", ascii "core.symlinks",
    ascii "core.trustctime", ascii "core.untrackedcache", ascii "core.worktree"].contains key

/-- The settings that make Git read or run something the preflight did not check. -/
def unsupportedSetting (entry : ConfigEntry) : Bool :=
  let key := entry.key
  key == ascii "include.path" || (ascii "includeif.").isPrefixOf key ||
    key == ascii "core.hookspath" ||
    key == ascii "core.fsmonitor" && !isFalse entry.value ||
    key == ascii "core.sparsecheckout" && !isFalse entry.value ||
    key == ascii "core.sparsecheckoutcone" && !isFalse entry.value ||
    (ascii ".promisor").isSuffixOf key && !isFalse entry.value ||
    (ascii ".partialclonefilter").isSuffixOf key && entry.value ≠ [] ||
    key == ascii "core.bare" && !isFalse entry.value ||
    (ascii "sparse.").isPrefixOf key

/-- The settings of a known section that are not known. -/
def unknownSetting (key : List UInt8) : Bool :=
  (ascii "core.").isPrefixOf key && !knownCoreKey key ||
    (ascii "extensions.").isPrefixOf key && key ≠ ascii "extensions.worktreeconfig" ||
    (ascii "index.").isPrefixOf key && key ≠ ascii "index.version" ||
    (ascii "status.").isPrefixOf key && key ≠ ascii "status.showuntrackedfiles"

/-- One pass through the loop of `validate_config_entries`: a key of a filter driver is judged by
itself, and every other key has to be supported and known. -/
def validateConfigEntry (entry : ConfigEntry) : Except GitInspectionIssue Unit := do
  let driver ← filterDriver entry.key
  refuseIf (driver = none ∧ unsupportedSetting entry) .unsupportedConfiguration
  refuseIf (driver = none ∧ unknownSetting entry.key) .unsupportedConfiguration

/-- `validate_config_entries`: the first entry that is not supported refuses the configuration. -/
def validateConfigEntries (entries : List ConfigEntry) : Except GitInspectionIssue Unit :=
  entries.forM validateConfigEntry

/-- `validate_gitmodules_config_entries`: as for any configuration, but a filter driver has no
place in it. -/
def validateGitmodulesConfigEntries (entries : List ConfigEntry) :
    Except GitInspectionIssue Unit := do
  refuseIf (entries.any fun entry => (ascii "filter.").isPrefixOf entry.key)
    .unsupportedConfiguration
  validateConfigEntries entries

/-! ### The attributes of the user

Which file of attributes the user has, from the configuration or from the environment. -/

/-- `SourceEnvironment`: the variables that decide which files Git reads its configuration from. -/
structure SourceEnvironment where
  home : Option (List UInt8)
  xdgConfigHome : Option (List UInt8)
  gitConfigNosystem : Option (List UInt8)
  gitConfigSystem : Option (List UInt8)
  gitConfigGlobal : Option (List UInt8)
  gitAttrNosystem : Option (List UInt8)
  unsupported : Bool
deriving DecidableEq

/-- `Path::join`: an absolute part replaces the path, and another one is appended behind a
separator. -/
def pathJoin (path part : List UInt8) : List UInt8 :=
  if isAbsolute part then part
  else if path = [] ∨ path.getLast? = some slash then path ++ part
  else path ++ slash :: part

/-- `resolve_attributes_source`: an absolute path, or one below the home directory; another user's
home is refused. -/
def resolveAttributesSource (environment : SourceEnvironment) (value : List UInt8) :
    Except GitInspectionIssue (List UInt8) :=
  if value.head? = some 126 then
    if value[1]? ≠ some slash then .error .unsafeAttributes
    else
      match environment.home with
      | none => .error .unsafeAttributes
      | some home => .ok (pathJoin home (value.drop 2))
  else if isAbsolute value then .ok value
  else .error .unsafeAttributes

/-- `default_user_attributes`: the file that Git reads where no other is configured. -/
def defaultUserAttributes (environment : SourceEnvironment) : Option (List UInt8) :=
  (environment.xdgConfigHome.or
    (environment.home.map fun home => pathJoin home (ascii ".config"))).map fun xdg =>
    pathJoin xdg (ascii "git/attributes")

/-- `core.attributesfile`, the key that names another file of attributes. -/
def attributesFileKey : List UInt8 := ascii "core.attributesfile"

/-- `extensions.worktreeconfig`, the key that switches on one more configuration file. -/
def worktreeConfigKey : List UInt8 := ascii "extensions.worktreeconfig"

end Git
end ThinWorkspace
