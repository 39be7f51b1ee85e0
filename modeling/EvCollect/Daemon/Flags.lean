import EvCollect.Util.CommandLine

/-!
# The flags of the daemon

The flags that `main` defines, and what it reads from them. The getters compare
addresses, so `main` finds a flag only where the compiler has given the literal
in the getter the address of the one in the definition.
-/

namespace EvCollect

/-- `FlagParser::isSet`. -/
def FlagParser.isSet (parser : FlagParser) (longopt : Pointer) : Bool :=
  match parser.lookup longopt with
  | none => false
  | some flag => flag.defaultValue.isSome || !flag.values.isEmpty

namespace Daemon

/-! ## The definitions -/

namespace Flag

abbrev help : Pointer := 0

abbrev version : Pointer := 1

abbrev spoolDir : Pointer := 2

abbrev config : Pointer := 3

abbrev plugin : Pointer := 4

abbrev pluginPath : Pointer := 5

abbrev loglevel : Pointer := 6

abbrev daemonize : Pointer := 7

abbrev pidfile : Pointer := 8

abbrev logToSyslog : Pointer := 9

abbrev nologToStderr : Pointer := 10

end Flag

/-- The literals of `main` at their addresses: the long names of the flags in the
order of their definition, then the short names and the defaults. -/
def literals : List Bytes :=
  [bytes "help", bytes "version", bytes "spool_dir", bytes "config",
    bytes "plugin", bytes "plugin_path", bytes "loglevel", bytes "daemonize",
    bytes "pidfile", bytes "log_to_syslog", bytes "nolog_to_stderr",
    bytes "?", bytes "V", bytes "s", bytes "c", bytes "p", bytes "P",
    bytes "/usr/local/lib/evcollect/plugins", bytes "INFO"]

def literal (pointer : Pointer) : Bytes :=
  (literals[pointer]?).getD []

/-- The flags that `main` defines. -/
def flags : FlagParser :=
  (({ } : FlagParser).defineFlag Flag.help .switch false (some 11) none)
    |>.defineFlag Flag.version .switch false (some 12) none
    |>.defineFlag Flag.spoolDir .string false (some 13) none
    |>.defineFlag Flag.config .string false (some 14) none
    |>.defineFlag Flag.plugin .string false (some 15) none
    |>.defineFlag Flag.pluginPath .string false (some 16) (some 17)
    |>.defineFlag Flag.loglevel .string false none (some 18)
    |>.defineFlag Flag.daemonize .switch false none none
    |>.defineFlag Flag.pidfile .string false none none
    |>.defineFlag Flag.logToSyslog .switch false none none
    |>.defineFlag Flag.nologToStderr .switch false none none

/-- What `main` reads from its flags. -/
structure Flags where
  nologToStderr : Bool
  daemonize : Bool
  logToSyslog : Bool
  loglevel : Bytes
  help : Bool
  version : Bool
  pluginPath : Bytes
  config : Bytes
  /-- The directory, if the flag is set. -/
  spoolDir : Option Bytes
  plugins : List Bytes
  pidfile : Bytes
  deriving DecidableEq, Repr

/-- The getters in `main`, with the addresses of their literals. A getter whose
assertion fails ends the program. -/
def Flags.ofParser
    (address : Pointer → Pointer)
    (parser : FlagParser) : Option Flags := do
  let getString := fun flag => parser.getString literal (address flag)
  let isSet := fun flag => parser.isSet (address flag)
  let loglevel ← getString Flag.loglevel
  let pluginPath ← getString Flag.pluginPath
  let config ← getString Flag.config
  let spoolDir ←
    (if isSet Flag.spoolDir then (getString Flag.spoolDir).map some
    else some none)
  let plugins ← parser.getStrings literal (address Flag.plugin)
  let pidfile ← getString Flag.pidfile
  return {
    nologToStderr := isSet Flag.nologToStderr
    daemonize := isSet Flag.daemonize
    logToSyslog := isSet Flag.logToSyslog
    loglevel := loglevel
    help := isSet Flag.help
    version := isSet Flag.version
    pluginPath := pluginPath
    config := config
    spoolDir := spoolDir
    plugins := plugins
    pidfile := pidfile }

/-! ## What a command line says -/

/-- The value that a command line gives for a flag, which is the last one. -/
def lastFor (flag : Pointer) (items : List Item) : Option Bytes :=
  (givenFor flag items).getLast?

/-- What a command line says. -/
def Flags.ofItems (items : List Item) : Flags where
  nologToStderr := !(givenFor Flag.nologToStderr items).isEmpty
  daemonize := !(givenFor Flag.daemonize items).isEmpty
  logToSyslog := !(givenFor Flag.logToSyslog items).isEmpty
  loglevel := (lastFor Flag.loglevel items).getD (bytes "INFO")
  help := !(givenFor Flag.help items).isEmpty
  version := !(givenFor Flag.version items).isEmpty
  pluginPath := (lastFor Flag.pluginPath items).getD
    (bytes "/usr/local/lib/evcollect/plugins")
  config := (lastFor Flag.config items).getD []
  spoolDir := lastFor Flag.spoolDir items
  plugins := givenFor Flag.plugin items
  pidfile := (lastFor Flag.pidfile items).getD []

/-- The names are distinct, whether long or short. -/
theorem defined_flags : Defined literal flags.flags where
  longNames := by decide
  shortNames := by decide
  oneCharacter := by decide
  fresh := by decide

/-- No flag takes a name of another one for its own: no short name is a dash, and
no long name ends in an equals sign. -/
theorem clear_flags (item : Item) : item.Clear literal flags.flags := by
  have noDash : ∀ flag ∈ flags.flags,
      flag.shortopt.map literal ≠ some (bytes "-") := by decide
  have noEquals : ∀ flag ∈ flags.flags,
      (literal flag.longopt).getLast? ≠ some 0x3d := by decide
  have none : ∀ state ∈ flags.flags, ∀ earlier ∈ flags.flags, ∀ short,
      ¬ earlier.Grabs literal state short := by
    intro state isFlag earlier isEarlier short
    cases short with
    | true => exact fun grabs => noDash state isFlag grabs.1
    | false =>
        rintro (equals | dash)
        · refine noEquals state isFlag ?_
          rw [equals, List.getLast?_append]
          rfl
        · exact noDash earlier isEarlier dash
  cases item with
  | positional arg => trivial
  | switch flag short | value flag short attached given =>
      exact fun state atIndex earlier isEarlier => none state
        (List.mem_of_getElem? atIndex) earlier (List.mem_of_mem_take isEarlier) _

end Daemon

/-! ## The getters -/

section Getters

variable {text : Pointer → Bytes}
variable {flags : List FlagState}
variable {flag : FlagState}
variable {index : Nat}

/-- A flag is found with the address it was defined with. -/
theorem lookup_longopt
    (defined : Defined text flags)
    (events : List Argument)
    (atIndex : flags[index]? = some flag) :
    (readParser flags events).lookup flag.longopt =
      some { flag with values := valuesOf index events } := by
  rw [lookup_readParser defined events atIndex rfl, if_pos rfl]

theorem isSet_readParser
    (defined : Defined text flags)
    (events : List Argument)
    (atIndex : flags[index]? = some flag) :
    (readParser flags events).isSet flag.longopt =
      (flag.defaultValue.isSome || !(valuesOf index events).isEmpty) := by
  rw [FlagParser.isSet, lookup_longopt defined events atIndex]

theorem getString_readParser
    (defined : Defined text flags)
    (events : List Argument)
    (atIndex : flags[index]? = some flag)
    (isString : flag.type = .string) :
    (readParser flags events).getString text flag.longopt =
      some ((valuesOf index events).getLast?.getD
        ((flag.defaultValue.map text).getD [])) := by
  rw [FlagParser.getString, lookup_longopt defined events atIndex]
  dsimp only
  rw [if_neg (not_not.mpr isString)]
  cases (valuesOf index events).getLast? <;> rfl

theorem getStrings_readParser
    (defined : Defined text flags)
    (events : List Argument)
    (atIndex : flags[index]? = some flag)
    (isString : flag.type = .string)
    (noDefault : flag.defaultValue = none) :
    (readParser flags events).getStrings text flag.longopt =
      some (valuesOf index events) := by
  rw [FlagParser.getStrings, lookup_longopt defined events atIndex]
  dsimp only
  rw [if_neg (not_not.mpr isString), noDefault]
  cases valuesOf index events <;> rfl

end Getters

namespace Daemon

/-- Where equal literals have one address, `main` reads what a command line says
that attaches no value with `=`, whatever the order and the names in which the
flags are given. -/
theorem flags_of_commandLine
    {address : Pointer → Pointer}
    {items : List Item}
    (merged : ∀ flag, address flag = flag)
    (fits : ∀ item ∈ items, item.Fits flags.flags)
    (detached : ∀ item ∈ items, item.attaches = false) :
    (parsed literal flags.flags items).1 = ReturnCode.success ∧
      Flags.ofParser address (parsed literal flags.flags items).2 =
        some (Flags.ofItems items) := by
  have read := readArgs_items defined_flags fits
    fun item isItem => ⟨detached item isItem, clear_flags item⟩
  obtain rfl : address = id := funext merged
  rw [parsed_of_read defined_flags read]
  constructor
  · have noneMissing : (readParser flags.flags
        (items.map Item.argument)).flags.find?
        (fun flag => flag.required && flag.values.isEmpty) = none := by
      refine List.find?_eq_none.mpr fun state isState => ?_
      obtain ⟨index, atIndex⟩ := List.mem_iff_getElem?.mp isState
      obtain ⟨flag, isFlag, rfl⟩ := exists_of_readParser defined_flags atIndex
      have optional : ∀ flag ∈ flags.flags, flag.required = false := by decide
      simp [optional flag (List.mem_of_getElem? isFlag)]
    rw [FlagParser.checkRequired, noneMissing]
  · have string := fun index flag => @getString_readParser literal flags.flags
      flag index defined_flags (items.map Item.argument)
    have isSet := fun index flag => @isSet_readParser literal flags.flags
      flag index defined_flags (items.map Item.argument)
    have plugins := @getStrings_readParser literal flags.flags _ Flag.plugin
      defined_flags (items.map Item.argument) rfl rfl rfl
    generalize readParser flags.flags (items.map Item.argument) = parser
      at string isSet plugins ⊢
    have loglevel : parser.getString literal Flag.loglevel =
        some ((lastFor Flag.loglevel items).getD (bytes "INFO")) :=
      string Flag.loglevel _ rfl rfl
    have pluginPath : parser.getString literal Flag.pluginPath =
        some ((lastFor Flag.pluginPath items).getD
          (bytes "/usr/local/lib/evcollect/plugins")) :=
      string Flag.pluginPath _ rfl rfl
    have config : parser.getString literal Flag.config =
        some ((lastFor Flag.config items).getD []) :=
      string Flag.config _ rfl rfl
    have pidfile : parser.getString literal Flag.pidfile =
        some ((lastFor Flag.pidfile items).getD []) :=
      string Flag.pidfile _ rfl rfl
    have spoolDir : (if parser.isSet Flag.spoolDir = true then
        (parser.getString literal Flag.spoolDir).map some else some none) =
        some (lastFor Flag.spoolDir items) := by
      have found : parser.getString literal Flag.spoolDir =
          some ((lastFor Flag.spoolDir items).getD []) :=
        string Flag.spoolDir _ rfl rfl
      have set : parser.isSet Flag.spoolDir =
          !(givenFor Flag.spoolDir items).isEmpty := isSet Flag.spoolDir _ rfl
      rw [found, set, lastFor]
      cases givenFor Flag.spoolDir items <;> rfl
    have given : parser.getStrings literal Flag.plugin =
        some (givenFor Flag.plugin items) := plugins
    unfold Flags.ofParser
    simp only [id_eq, loglevel, pluginPath, config, pidfile, spoolDir, given,
      Option.bind_eq_bind, Option.bind_some, Option.pure_def]
    refine congrArg some ?_
    unfold Flags.ofItems
    congr 1
    · exact isSet Flag.nologToStderr _ rfl
    · exact isSet Flag.daemonize _ rfl
    · exact isSet Flag.logToSyslog _ rfl
    · exact isSet Flag.help _ rfl
    · exact isSet Flag.version _ rfl

/-- `-c /etc/evcollect.conf --daemonize -p hostname --plugin eventql`. -/
def daemonLine : List Item :=
  [.value Flag.config true false (bytes "/etc/evcollect.conf"),
    .switch Flag.daemonize false,
    .value Flag.plugin true false (bytes "hostname"),
    .value Flag.plugin false false (bytes "eventql")]

theorem flags_of_commandLine_daemon :
    (parsed literal flags.flags daemonLine).1 = ReturnCode.success ∧
      Flags.ofParser id (parsed literal flags.flags daemonLine).2 =
        some (Flags.ofItems daemonLine) := by
  refine flags_of_commandLine (fun _ => rfl) ?_ (by decide)
  simp only [daemonLine, List.forall_mem_cons]
  exact ⟨⟨_, rfl, by decide, by decide⟩,
    ⟨_, rfl, by decide, by decide⟩, ⟨_, rfl, by decide, by decide⟩,
    ⟨_, rfl, by decide, by decide⟩, List.forall_mem_nil _⟩

end Daemon
end EvCollect
