import LayeredLedger.Config.Environment
import LayeredLedger.Config.Toml.Outline
import LayeredLedger.Service.Basic

/-!
# Settings of the ledger

The settings are the currencies, what to do with pending transactions that no strategy takes,
whether movements are logged, and the default journal. Each can be left out. A value of the wrong
shape is an error; keys without a meaning are ignored.

* `LedgerConfig`, `LedgerConfig.ofValue?`, `LedgerConfig.ofToml?`;
* `LedgerConfig.load?`: settings from files and variables;
* `LedgerConfig.registry`, `LedgerService.ofConfig`: what the settings make.
-/

namespace LayeredLedger

/-- The settings of the ledger. -/
structure LedgerConfig where
  /-- The currencies and their numbers. -/
  currencies : List (CurrencyCode × Nat)
  /-- A pending transaction that no strategy takes is completed as money coming in. -/
  fallBack : Bool
  /-- Movements are logged. -/
  logsMovements : Bool
  /-- The default journal. -/
  journal? : Option Uuid

/-- The fields of a record, which is a table with their names or an array in their order. -/
def recordFields? (names : List String) : ConfigValue → Option (List (Option ConfigValue))
  | .table entries => some (names.map fun name => entries.lookup name)
  | .array items => some ((List.range names.length).map fun i => items[i]?)
  | _ => none

/-- Reads a field that can be left out. -/
def optionalField? {α : Type} (default : α) (read : ConfigValue → Option α) :
    Option ConfigValue → Option α
  | none => some default
  | some value => read value

/-- Reads a record with one field, which can be left out. -/
def flagRecord? (name : String) (value : ConfigValue) : Option Bool :=
  match recordFields? [name] value with
  | some [flag?] => optionalField? false ConfigValue.asBool? flag?
  | _ => none

/-- The bound of the numbers that a configuration can hold. -/
def configIdBound : Nat := 65536

/-- Reads a currency and its number. -/
def currencySetting? (value : ConfigValue) : Option (CurrencyCode × Nat) :=
  match recordFields? ["code", "id"] value with
  | some [some code, some id] => do
    let code ← CurrencyCode.parse? (← code.asText?)
    let id ← id.asNat?
    if id < configIdBound then some (code, id) else none
  | _ => none

def currencySettings? : ConfigValue → Option (List (CurrencyCode × Nat))
  | .array items => items.mapM currencySetting?
  | _ => none

def journalSetting? (value : ConfigValue) : Option (Option Uuid) := do
  return some (← Uuid.parse? (← value.asText?))

namespace LedgerConfig

def ofValue? (value : ConfigValue) : Option LedgerConfig :=
  match recordFields? ["currencies", "strategy", "movements", "journal"] value with
  | some [currencies?, strategy?, movements?, journal?] => do
    let currencies ← optionalField? [] currencySettings? currencies?
    let fallBack ← optionalField? false (flagRecord? "legacy_default_pending_inbound") strategy?
    let logsMovements ← optionalField? false (flagRecord? "log") movements?
    let journal? ← optionalField? none journalSetting? journal?
    return ⟨currencies, fallBack, logsMovements, journal?⟩
  | _ => none

def ofToml? (document : String) : Option LedgerConfig := do
  ofValue? (ConfigValue.emptyTable.overlay (← Toml.parse? document))

/-! ## Sources -/

/-- The name of the file of all settings, without its ending. -/
def baseName : String := "config/ledger"

def fileEnding : String := ".toml"

def runMode (env : Environment) : String := (env.get? "RUN_MODE").getD "development"

/-- The file of a name: one with just this name, if it has the ending, or one with the ending
after the name. -/
def fileText? (files : List (String × String)) (name : String) : Option String :=
  match files.lookup name with
  | some text => if fileEnding.toList.isSuffixOf name.toList then some text else none
  | none => files.lookup (name ++ fileEnding)

/-- Sets what a file says, if it is there. A byte order mark belongs to the file, and another
one to the document. -/
def overlayFile? (files : List (String × String)) (root : ConfigValue) (name : String) :
    Option ConfigValue :=
  match fileText? files name with
  | none => some root
  | some text => do
    let document := String.ofList (Text.dropByteOrderMark text.toList)
    return root.overlay (← Toml.parse? document)

/-- Reads the settings from the file of all settings, the file of the mode and the variables,
each overriding those before it. -/
def load? (files : List (String × String)) (env : Environment) : Option LedgerConfig := do
  let env := match files.lookup ".env" with
    | some file => env.withFile file
    | none => env
  let root ← overlayFile? files .emptyTable baseName
  let root ← overlayFile? files root (baseName ++ "." ++ runMode env)
  ofValue? (env.overlayOn root)

/-! ## What settings make -/

def registry (config : LedgerConfig) : Except LedgerError CurrencyRegistry :=
  CurrencyRegistry.ofList config.currencies

end LedgerConfig

/-- The service that the settings ask for. -/
def LedgerService.ofConfig (config : LedgerConfig) : Except LedgerError LedgerService := do
  let currencies ← config.registry
  return { LedgerService.standard currencies with
    fallBack := config.fallBack
    defaultJournal? := config.journal?.map JournalId.mk }

end LayeredLedger
