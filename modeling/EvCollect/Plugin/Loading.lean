import EvCollect.Plugin.Library
import EvCollect.Plugin.Paths

/-!
# Loading plugins

`loadPlugin`, which opens a library and calls the function that registers its
plugins, and `ServiceImpl::loadPlugin`, which finds the file of the library. A
library that refuses to be loaded is closed again, whatever it has registered.
-/

namespace EvCollect
namespace Plugin

open Process Service StringUtil

/-- Set the number of open handles of a library. -/
def Runtime.setHandles
    (library : Library)
    (count : Nat)
    (runtime : Runtime) : Runtime :=
  { runtime with handles := Function.update runtime.handles library count }

/-- Note a path that is given to `dlopen`. -/
def Runtime.noteOpened (path : Bytes) (runtime : Runtime) : Runtime :=
  { runtime with opened := runtime.opened ++ [path] }

/-- `dlclose`. -/
def dlclose (library : Library) : LibraryProc Unit :=
  Proc.modify fun runtime =>
    runtime.setHandles library (runtime.handles library - 1)

variable (linker : Linker)

/-- `stat` of a path, and whether there is a file. -/
def stat (path : Bytes) : LibraryProc Bool :=
  Proc.call (.stat path) fun entry runtime =>
    (linker.stat (cString path) entry, runtime)

/-- `dlopen`, or the text of `dlerror`. -/
def dlopen (path : Bytes) : LibraryProc (Except Bytes Library) :=
  Proc.call (.dlopen path) fun entry runtime =>
    match linker.dlopen (cString path) entry with
    | none => (.error entry.reply, runtime.noteOpened path)
    | some library =>
        (.ok library, (runtime.noteOpened path).setHandles library
          (runtime.handles library + 1))

/-- `dlsym`, or the text of `dlerror`. -/
def dlsym
    (library : Library)
    (symbol : Bytes) : LibraryProc (Except Bytes Address) :=
  Proc.call (.dlsym library symbol) fun entry runtime =>
    match linker.dlsym library symbol entry with
    | none => (.error entry.reply, runtime)
    | some function => (.ok function, runtime)

/-- `loadPlugin` of a function, which registers plugins. -/
def loadPluginFn
    (library : Library)
    (initFn : Address) : LibraryProc ReturnCode := do
  let answer ← callFunction linker .register library initFn .nothing
  if answer.result then return ReturnCode.success
  else
    let runtime ← Proc.get
    return ReturnCode.makeError "EPLUGIN" runtime.error

/-- The end of `loadPlugin` of a file, once the library is open. -/
def loadLibrary
    (path symbol : Bytes)
    (library : Library) : LibraryProc ReturnCode := do
  match ← dlsym linker library symbol with
  | .error dlerror =>
      dlclose library
      return ReturnCode.makeErrorf "EIO"
        (bytes "error while loading plugin: " ++ cString path ++
          bytes ": " ++ cString dlerror ++ bytes " [symbol '" ++
          cString symbol ++ bytes "' not found]")
  | .ok initFn =>
      match ← loadPluginFn linker library initFn with
      | .error error =>
          dlclose library
          return .error error
      | .ok () => return ReturnCode.success

/-- `loadPlugin` of a file. -/
def loadPluginFile (name path : Bytes) : LibraryProc ReturnCode := do
  match ← dlopen linker path with
  | .error dlerror =>
      return ReturnCode.makeErrorf "EIO"
        (bytes "error while loading plugin: " ++ cString path ++ bytes ": " ++
          cString dlerror)
  | .ok library =>
      match pluginInitFn name with
      | none => Proc.halt .unformatted
      | some symbol => loadLibrary linker path symbol library

/-- The paths at which a plugin is looked for. -/
def pathCandidates (pluginDir plugin : Bytes) : List Bytes :=
  (if isShellSafe plugin then [] else [plugin]) ++
    [pluginDir ++ bytes "/" ++ plugin,
      pluginDir ++ bytes "/plugin_" ++ plugin ++ bytes ".so"]

/-- An error of `ServiceImpl::loadPlugin`. -/
def pluginError (text : Option Bytes) : LibraryProc ReturnCode :=
  match text with
  | none => Proc.halt .unformatted
  | some message => pure (ReturnCode.makeError "EPLUGIN" message)

/-- What `ServiceImpl::loadPlugin` returns for a file that has been found. -/
def reported
    (plugin : Bytes)
    (rc : ReturnCode) : LibraryProc ReturnCode :=
  match rc with
  | .ok () => pure ReturnCode.success
  | .error error => pluginError
      (format (bytes "error while loading plugin '$0': $1")
        [plugin, error.message])

/-- The loop of `ServiceImpl::loadPlugin` over the candidates. -/
def tryCandidates
    (plugin name : Bytes)
    (all : List Bytes) : List Bytes → LibraryProc ReturnCode
  | [] =>
      pluginError
        (format (bytes "plugin not found -- tried $0") [join all (bytes ", ")])
  | path :: rest => do
      if ← stat linker path then
        let rc ← loadPluginFile linker name path
        reported plugin rc
      else tryCandidates plugin name all rest

/-- `ServiceImpl::loadPlugin`. -/
def loadPlugin (pluginDir plugin : Bytes) : LibraryProc ReturnCode :=
  match pluginName plugin with
  | none => pluginError
      (format (bytes ("invalid plugin filename '$0' -- should be " ++
        "plugin_<name>.so")) [plugin])
  | some name =>
      tryCandidates linker plugin name (pathCandidates pluginDir plugin)
        (pathCandidates pluginDir plugin)

/-! ## Calls back -/

/-- No source plugin is initialized. -/
def Runtime.Fresh (runtime : Runtime) : Prop :=
  ∀ name binding, runtime.pluginMap.sourcePlugins.lookup name = some binding →
    binding.pluginInitialized = false

/-- What a function of a library can do by calling back: it registers plugins of
its library. -/
structure Runtime.Gains
    (library : Library)
    (before after : Runtime) : Prop where
  handles : after.handles = before.handles
  contextAlive : after.contextAlive = before.contextAlive
  opened : after.opened = before.opened
  calls : after.calls = before.calls
  sources : ∃ more, after.sourcePlugins = before.sourcePlugins ++ more ∧
    ∀ plugin ∈ more, plugin.library = library
  outputs : ∃ more, after.outputPlugins = before.outputPlugins ++ more ∧
    ∀ plugin ∈ more, plugin.library = library
  fresh : before.Fresh → after.Fresh

namespace Runtime

variable {library : Library}
variable {runtime : Runtime}

theorem Gains.refl (library : Library) (runtime : Runtime) :
    Gains library runtime runtime where
  handles := rfl
  contextAlive := rfl
  opened := rfl
  calls := rfl
  sources := ⟨[], (List.append_nil _).symm, List.forall_mem_nil _⟩
  outputs := ⟨[], (List.append_nil _).symm, List.forall_mem_nil _⟩
  fresh := id

theorem Gains.trans
    {first second third : Runtime}
    (left : Gains library first second)
    (right : Gains library second third) :
    Gains library first third where
  handles := right.handles.trans left.handles
  contextAlive := right.contextAlive.trans left.contextAlive
  opened := right.opened.trans left.opened
  calls := right.calls.trans left.calls
  sources := by
    obtain ⟨more, equal, own⟩ := left.sources
    obtain ⟨more', equal', own'⟩ := right.sources
    exact ⟨more ++ more', by rw [equal', equal, List.append_assoc],
      List.forall_mem_append.mpr ⟨own, own'⟩⟩
  outputs := by
    obtain ⟨more, equal, own⟩ := left.outputs
    obtain ⟨more', equal', own'⟩ := right.outputs
    exact ⟨more ++ more', by rw [equal', equal, List.append_assoc],
      List.forall_mem_append.mpr ⟨own, own'⟩⟩
  fresh := fun fresh => right.fresh (left.fresh fresh)

/-- A plugin that is registered is not initialized. -/
theorem Fresh.register
    (fresh : runtime.Fresh)
    (library : Library)
    (name : Bytes)
    (functions : SourceFunctions) :
    (runtime.evcollectSourcePluginRegister library name functions).Fresh := by
  intro other binding found
  change (Bindings.register _ _ _).lookup other = some binding at found
  rw [Bindings.register, Bindings.emplace] at found
  split at found
  · exact fresh other binding found
  · by_cases same : other = cString name
    · subst same
      rw [AList.lookup_insert, Option.some_inj] at found
      rw [← found]
    · rw [AList.lookup_insert_ne same] at found
      exact fresh other binding found

theorem gains_callBack
    (library : Library)
    (runtime : Runtime)
    (call : ApiCall) :
    Gains library runtime (runtime.callBack library call) := by
  have same := Gains.refl library runtime
  cases call with
  | setError error =>
      exact ⟨rfl, rfl, rfl, rfl, same.sources, same.outputs, id⟩
  | setData data => exact same
  | registerSource name functions =>
      refine ⟨rfl, rfl, rfl, rfl, ⟨_, rfl, ?_⟩, same.outputs,
        fun fresh => fresh.register library name functions⟩
      exact List.forall_mem_singleton.mpr rfl
  | registerOutput name functions =>
      refine ⟨rfl, rfl, rfl, rfl, same.sources, ⟨_, rfl, ?_⟩, id⟩
      exact List.forall_mem_singleton.mpr rfl

theorem gains_foldl
    (library : Library)
    (calls : List ApiCall)
    (runtime : Runtime) :
    Gains library runtime (calls.foldl (callBack library) runtime) := by
  induction calls generalizing runtime with
  | nil => exact Gains.refl library runtime
  | cons call calls inductionHypothesis =>
      exact (gains_callBack library runtime call).trans (inductionHypothesis _)

end Runtime

variable {linker : Linker}
variable {runtime : Runtime}

/-- A call of a function is noted, and the function calls back. -/
theorem callFunction_gains
    {inv : LibraryPoint → Runtime → Prop}
    (role : Role)
    (library : Library)
    (function : Address)
    (arguments : Arguments)
    (held : inv (.function library function) runtime) :
    wp inv (callFunction linker role library function arguments)
      (fun _ after =>
        Runtime.Gains library (runtime.noteCall role library function) after)
      runtime :=
  wp_call held fun _ => Runtime.gains_foldl library _ _

theorem dlsym_same
    {inv : LibraryPoint → Runtime → Prop}
    (library : Library)
    (symbol : Bytes)
    (held : inv (.dlsym library symbol) runtime) :
    wp inv (dlsym linker library symbol) (fun _ after => after = runtime)
      runtime := by
  refine wp_call held fun entry => ?_
  split <;> rfl

/-- `dlopen` notes the path and, if it succeeds, the handle. -/
theorem dlopen_spec
    {inv : LibraryPoint → Runtime → Prop}
    (path : Bytes)
    (held : inv (.dlopen path) runtime) :
    wp inv (dlopen linker path)
      (fun result after => match result with
        | .error _ => after = runtime.noteOpened path
        | .ok library => after = (runtime.noteOpened path).setHandles library
            (runtime.handles library + 1)) runtime := by
  refine wp_call held fun entry => ?_
  cases linker.dlopen (cString path) entry <;> rfl

/-! ## Which libraries a call leaves open -/

/-- What has been opened, and what is open. -/
structure Opens
    (before : Runtime)
    (paths : List Bytes)
    (handles : Library → Nat)
    (after : Runtime) : Prop where
  opened : after.opened = before.opened ++ paths
  handles : after.handles = handles

/-- A library that was open once more and is closed. -/
theorem Opens.close
    {before after : Runtime}
    {paths : List Bytes}
    {handles : Library → Nat}
    {library : Library}
    (opens : Opens before paths
      (Function.update handles library (handles library + 1)) after) :
    Opens before paths handles
      (after.setHandles library (after.handles library - 1)) := by
  refine ⟨opens.opened, ?_⟩
  change Function.update after.handles library _ = handles
  rw [opens.handles, Function.update_self, Function.update_idem,
    Nat.add_sub_cancel, Function.update_eq_self]

theorem loadPluginFn_opens
    {before : Runtime}
    {paths : List Bytes}
    {handles : Library → Nat}
    (opens : Opens before paths handles runtime)
    (library : Library)
    (initFn : Address) :
    wp (fun _ _ => True) (loadPluginFn linker library initFn)
      (fun _ after => Opens before paths handles after) runtime := by
  apply wp_seq (callFunction_gains .register library initFn .nothing trivial)
  intro answer after gains
  have still : Opens before paths handles after :=
    ⟨gains.opened.trans opens.opened, gains.handles.trans opens.handles⟩
  split
  · exact wp_pure still
  · exact wp_bind (wp_get (wp_pure still))

/-- A library that has been opened stays open if its function accepts. -/
theorem loadLibrary_opens
    {before : Runtime}
    {paths : List Bytes}
    {handles : Library → Nat}
    (path symbol : Bytes)
    (library : Library)
    (opens : Opens before paths
      (Function.update handles library (handles library + 1)) runtime) :
    wp (fun _ _ => True) (loadLibrary linker path symbol library)
      (fun rc after => Opens before paths
        (if ReturnCode.isSuccess rc then
          Function.update handles library (handles library + 1)
        else handles) after) runtime := by
  apply wp_seq (dlsym_same library symbol trivial)
  rintro found _ rfl
  cases found with
  | error dlerror => exact wp_bind (wp_modify (wp_pure opens.close))
  | ok initFn =>
      apply wp_seq (loadPluginFn_opens opens library initFn)
      intro rc after still
      cases rc with
      | error failure => exact wp_bind (wp_modify (wp_pure still.close))
      | ok _ => exact wp_pure still

/-- What a load leaves behind: a success one more handle of some library, and a
failure none. -/
def Balanced (before : Runtime) (paths : List Bytes) :
    ReturnCode → Runtime → Prop
  | .ok _, after => ∃ library, Opens before paths
      (Function.update before.handles library (before.handles library + 1))
      after
  | .error _, after => Opens before paths before.handles after

theorem loadPluginFile_balanced (name path : Bytes) :
    wp (fun _ _ => True) (loadPluginFile linker name path)
      (Balanced runtime [path]) runtime := by
  apply wp_seq (dlopen_spec path trivial)
  rintro result after opened
  cases result with
  | error dlerror =>
      obtain rfl := opened
      exact wp_pure ⟨rfl, rfl⟩
  | ok library =>
      obtain rfl := opened
      cases pluginInitFn name with
      | none => exact wp_halt trivial
      | some symbol =>
          have noted : Opens runtime [path] (Function.update runtime.handles
              library (runtime.handles library + 1))
              ((runtime.noteOpened path).setHandles library
                (runtime.handles library + 1)) := ⟨rfl, rfl⟩
          apply wp_mono (loadLibrary_opens path symbol library noted)
            (fun _ _ _ => trivial)
          intro rc after opens
          cases rc with
          | error failure => exact opens
          | ok _ => exact ⟨library, opens⟩

theorem pluginError_balanced
    {before : Runtime}
    {paths : List Bytes}
    (opens : Opens before paths before.handles runtime)
    (text : Option Bytes) :
    wp (fun _ _ => True) (pluginError text) (Balanced before paths)
      runtime := by
  cases text with
  | none => exact wp_halt trivial
  | some message => exact wp_pure opens

/-- The first candidate that is there is tried, and no other one. -/
theorem tryCandidates_balanced
    {present : Bytes → Bool}
    (still : ∀ path entry, linker.stat (cString path) entry = present path)
    (plugin name : Bytes)
    (all candidates : List Bytes) :
    wp (fun _ _ => True) (tryCandidates linker plugin name all candidates)
      (Balanced runtime (candidates.find? present).toList) runtime := by
  induction candidates with
  | nil => exact pluginError_balanced ⟨(List.append_nil _).symm, rfl⟩ _
  | cons path rest inductionHypothesis =>
      refine wp_bind (wp_call trivial fun entry => ?_)
      dsimp only
      rw [still, List.find?_cons]
      cases present path with
      | false => exact inductionHypothesis
      | true =>
          refine wp_seq (loadPluginFile_balanced name path) ?_
          intro rc after balanced
          cases rc with
          | error failure =>
              rw [reported]
              exact pluginError_balanced balanced _
          | ok _ => exact wp_pure balanced

/-- While the files stay where they are, a plugin is loaded from the first
candidate that is there or not at all, and a load that fails leaves no library
open. -/
theorem loadPlugin_opens
    {present : Bytes → Bool}
    {pluginDir plugin : Bytes}
    {rc : ReturnCode}
    {after : Runtime}
    (still : ∀ path entry, linker.stat (cString path) entry = present path)
    (ended : Ends (loadPlugin linker pluginDir plugin) runtime rc after) :
    after.opened = runtime.opened ++
        (if (pluginName plugin).isNone then []
          else ((pathCandidates pluginDir plugin).find? present).toList) ∧
      match rc with
      | .ok _ => ∃ library, after.handles =
          Function.update runtime.handles library (runtime.handles library + 1)
      | .error _ => after.handles = runtime.handles := by
  have balanced : wp (fun _ _ => True) (loadPlugin linker pluginDir plugin)
      (Balanced runtime (if (pluginName plugin).isNone then []
        else ((pathCandidates pluginDir plugin).find? present).toList))
      runtime := by
    unfold loadPlugin
    cases pluginName plugin with
    | none =>
        dsimp only
        rw [if_pos Option.isNone_none]
        exact pluginError_balanced ⟨(List.append_nil _).symm, rfl⟩ _
    | some name => exact tryCandidates_balanced still plugin name _ _
  have result := balanced.ends ended
  cases rc with
  | error failure => exact ⟨result.opened, result.handles⟩
  | ok _ =>
      obtain ⟨library, opens⟩ := result
      exact ⟨opens.opened, library, opens.handles⟩

/-- A library that is found under the long name of a plugin only. -/
def longNamed : Linker where
  stat := fun path _ => path = bytes "lib/plugin_disk.so"
  dlopen := fun _ _ => some 1
  dlsym := fun _ _ _ => some 5
  answer := fun _ _ _ _ _ => { result := true }
  uninitialized := 0

/-- A service without plugins. -/
def noPlugins : Runtime where
  pluginMap := { spoolDir := [] }

/-- The service when the plugin has been loaded. -/
def diskLoaded : Runtime :=
  (loadPlugin longNamed (bytes "lib") (bytes "disk")
    [{ }, { }, { }, { }, { }] noPlugins).state

theorem loadPlugin_opens_longNamed :
    diskLoaded.opened =
        noPlugins.opened ++
          (if (pluginName (bytes "disk")).isNone then []
            else ((pathCandidates (bytes "lib") (bytes "disk")).find?
              fun path => cString path = bytes "lib/plugin_disk.so").toList) ∧
      ∃ library, diskLoaded.handles =
        Function.update noPlugins.handles library
          (noPlugins.handles library + 1) :=
  loadPlugin_opens (fun _ _ => rfl)
    (ends_of_value _ _ _ (by decide : (loadPlugin longNamed (bytes "lib")
      (bytes "disk") [{ }, { }, { }, { }, { }] noPlugins).value =
        some ReturnCode.success))

/-! ## What is looked up -/

/-- The error of an argument that stands for no name. -/
def invalidFilename (plugin : Bytes) : Error where
  code := bytes "EPLUGIN"
  message := bytes "invalid plugin filename '" ++
    (plugin ++ bytes "' -- should be plugin_<name>.so")

/-- A text of another beginning, or one that is too long. -/
theorem ne_invalidFilename
    {plugin message : Bytes}
    {first : UInt8}
    (short : plugin.length < 2 ^ 31)
    (other : first ≠ 0x69)
    (begins : message.head? = some first ∨ 2 ^ 32 ≤ message.length)
    (code : Bytes) :
    ({ code := code, message := message } : Error) ≠ invalidFilename plugin := by
  intro same
  have isMessage : message = (invalidFilename plugin).message :=
    congrArg Error.message same
  rcases begins with isFirst | huge
  · have head : (bytes "invalid plugin filename '").head? = some 0x69 := by decide
    rw [isMessage, invalidFilename, List.head?_append, head, Option.some_or,
      Option.some_inj] at isFirst
    exact other isFirst.symm
  · have before : (bytes "invalid plugin filename '").length = 25 := by decide
    have behind : (bytes "' -- should be plugin_<name>.so").length = 31 := by decide
    rw [isMessage, invalidFilename] at huge
    simp only [List.length_append, before, behind] at huge
    omega

/-- The text for an argument that stands for no name. -/
theorem format_invalidFilename
    {plugin : Bytes}
    (short : plugin.length < 2 ^ 31) :
    format (bytes ("invalid plugin filename '$0' -- should be " ++
      "plugin_<name>.so")) [plugin] = some (invalidFilename plugin).message := by
  have template : bytes ("invalid plugin filename '$0' -- should be " ++
      "plugin_<name>.so") = bytes "invalid plugin filename '" ++
        (bytes "$0" ++ bytes "' -- should be plugin_<name>.so") := by
    decide
  have pattern : bytes "$" ++ decimal 0 = bytes "$0" := by decide
  have replaced := @replaceAll_between (bytes "$0") plugin
    (bytes "invalid plugin filename '") (bytes "' -- should be plugin_<name>.so")
    (by decide) (firstBehind_placeholder (by decide) _ _) (by decide) (by decide)
    (by
      rw [show (bytes "invalid plugin filename '").length = 25 by decide]
      omega)
  rw [format, formatImpl, pattern, template]
  exact congrArg (fun text => text.bind some) replaced

theorem pluginError_ne
    {inv : LibraryPoint → Runtime → Prop}
    {plugin : Bytes}
    {text : Option Bytes}
    {first : UInt8}
    (short : plugin.length < 2 ^ 31)
    (other : first ≠ 0x69)
    (begins : ∀ message, text = some message →
      message.head? = some first ∨ 2 ^ 32 ≤ message.length)
    (halted : inv .unformatted runtime) :
    wp inv (pluginError text)
      (fun rc _ => rc ≠ .error (invalidFilename plugin)) runtime := by
  cases text with
  | none => exact wp_halt halted
  | some message =>
      refine wp_pure fun same => ?_
      exact ne_invalidFilename short other (begins message rfl) (bytes "EPLUGIN")
        (Except.error.inj same)

/-- The text for a library that is not loaded. -/
theorem head_format_reported
    {plugin message text : Bytes}
    (short : plugin.length < 2 ^ 31)
    (formatted : format (bytes "error while loading plugin '$0': $1")
      [plugin, message] = some text) :
    text.head? = some 0x65 ∨ 2 ^ 32 ≤ text.length := by
  have template : bytes "error while loading plugin '$0': $1" =
      bytes "error while loading plugin '" ++ (bytes "$0" ++ bytes "': $1") := by
    decide
  have first : bytes "$" ++ decimal 0 = bytes "$0" := by decide
  have second : bytes "$" ++ decimal 1 = bytes "$1" := by decide
  have before : (bytes "error while loading plugin '").length = 28 := by decide
  have behind : (bytes "': $1").length = 5 := by decide
  have head : (bytes "error while loading plugin '").head? = some 0x65 := by decide
  have replaced := @replaceAll_between (bytes "$0") plugin
    (bytes "error while loading plugin '") (bytes "': $1")
    (by decide) (firstBehind_placeholder (by decide) _ _) (by decide) (by decide)
    (by
      rw [before]
      omega)
  rw [format, formatImpl, Nat.zero_add, first, template, replaced,
    Option.bind_eq_bind, Option.bind_some, formatImpl, second] at formatted
  obtain ⟨result, returned, last⟩ := Option.bind_eq_some_iff.mp formatted
  cases last
  refine replaceAll_head (by decide) (by decide) ?_ ?_ returned
  · rw [List.head?_append, head, Option.some_or]
  · simp only [List.length_append, before, behind]
    omega

/-- Every symbol that is looked up is this one. -/
def LooksUp (symbol : Bytes) : LibraryPoint → Runtime → Prop
  | .dlsym _ lookedUp, _ => lookedUp = symbol
  | _, _ => True

theorem loadLibrary_looksUp
    (path symbol : Bytes)
    (library : Library) :
    wp (LooksUp symbol) (loadLibrary linker path symbol library)
      (fun _ _ => True) runtime := by
  have looked : wp (LooksUp symbol) (dlsym linker library symbol)
      (fun _ _ => True) runtime := wp_call rfl fun _ => trivial
  apply wp_seq looked
  rintro found after -
  cases found with
  | error dlerror => exact wp_bind (wp_modify (wp_pure trivial))
  | ok initFn =>
      have called : wp (LooksUp symbol) (loadPluginFn linker library initFn)
          (fun _ _ => True) after := by
        have called : wp (LooksUp symbol)
            (callFunction linker .register library initFn .nothing)
            (fun _ _ => True) after :=
          wp_call trivial fun _ => trivial
        apply wp_seq called
        rintro answer later -
        split
        · exact wp_pure trivial
        · exact wp_bind (wp_get (wp_pure trivial))
      apply wp_seq called
      rintro rc later -
      cases rc with
      | error failure => exact wp_bind (wp_modify (wp_pure trivial))
      | ok _ => exact wp_pure trivial

theorem tryCandidates_looksUp
    {plugin name : Bytes}
    (short : plugin.length < 2 ^ 31)
    (shortName : name.length < 2 ^ 31)
    (all candidates : List Bytes) :
    wp (LooksUp (initSymbol name))
      (tryCandidates linker plugin name all candidates)
      (fun rc _ => rc ≠ .error (invalidFilename plugin)) runtime := by
  induction candidates generalizing runtime with
  | nil =>
      rw [tryCandidates]
      have other : (0x70 : UInt8) ≠ 0x69 := by decide
      generalize formatted : format _ _ = text
      refine pluginError_ne short other (fun message isText => ?_) trivial
      rw [isText] at formatted
      have pattern : bytes "$" ++ decimal 0 = bytes "$0" := by decide
      rw [format, formatImpl, pattern, Option.bind_eq_bind] at formatted
      obtain ⟨result, returned, last⟩ := Option.bind_eq_some_iff.mp formatted
      cases last
      exact replaceAll_head (by decide) (by decide) (by decide) (by decide) returned
  | cons path rest inductionHypothesis =>
      have asked : wp (LooksUp (initSymbol name)) (stat linker path)
          (fun _ _ => True) runtime := wp_call trivial fun _ => trivial
      apply wp_seq asked
      rintro isThere after -
      cases isThere with
      | false => exact inductionHypothesis
      | true =>
          have loaded : wp (LooksUp (initSymbol name))
              (loadPluginFile linker name path) (fun _ _ => True) after := by
            have tried : wp (LooksUp (initSymbol name)) (dlopen linker path)
                (fun _ _ => True) after := wp_call trivial fun _ => trivial
            apply wp_seq tried
            rintro opened later -
            cases opened with
            | error dlerror => exact wp_pure trivial
            | ok library =>
                rw [pluginInitFn_eq shortName]
                exact loadLibrary_looksUp path (initSymbol name) library
          apply wp_seq loaded
          rintro rc later -
          cases rc with
          | ok _ => exact wp_pure fun same => by cases same
          | error failure =>
              dsimp only [reported]
              have other : (0x65 : UInt8) ≠ 0x69 := by decide
              generalize formatted : format _ _ = text
              refine pluginError_ne short other (fun message isText => ?_) trivial
              exact head_format_reported short (formatted.trans isText)

/-- Every symbol that a load looks up is that of the name that the argument stands
for, and a load fails as one of an invalid file name if and only if there is no such
name. -/
theorem loadPlugin_looksUp
    {plugin : Bytes}
    (short : plugin.length < 2 ^ 31)
    (linker : Linker)
    (pluginDir : Bytes)
    (runtime : Runtime) :
    (∀ library symbol after,
      Reaches (loadPlugin linker pluginDir plugin) runtime
          (.dlsym library symbol) after →
        ∃ name, IsNameOf plugin name ∧ symbol = initSymbol name) ∧
      (∀ rc after, Ends (loadPlugin linker pluginDir plugin) runtime rc after →
        (rc = .error (invalidFilename plugin) ↔ ¬ ∃ name, IsNameOf plugin name)) ∧
      ((¬ ∃ name, IsNameOf plugin name) → ∀ script,
        loadPlugin linker pluginDir plugin script runtime =
          .done (.error (invalidFilename plugin)) script runtime) := by
  cases known : pluginName plugin with
  | none =>
      have noName := pluginName_eq_none_iff.mp known
      have fails : ∀ script, loadPlugin linker pluginDir plugin script runtime =
          .done (.error (invalidFilename plugin)) script runtime := by
        intro script
        rw [loadPlugin, known]
        dsimp only
        rw [format_invalidFilename short]
        rfl
      refine ⟨?_, ?_, fun _ => fails⟩
      · rintro library symbol after ⟨script, reached⟩
        cases (fails script).symm.trans reached
      · rintro rc after ⟨script, rest, ended⟩
        cases (fails script).symm.trans ended
        exact iff_of_true rfl noName
  | some name =>
      have isName := pluginName_iff.mp known
      have shortName := Nat.lt_of_le_of_lt isName.length_le short
      have runs : wp (LooksUp (initSymbol name)) (loadPlugin linker pluginDir plugin)
          (fun rc _ => rc ≠ .error (invalidFilename plugin)) runtime := by
        rw [loadPlugin, known]
        exact tryCandidates_looksUp short shortName _ _
      refine ⟨fun _ symbol _ reached => ⟨name, isName, runs.reaches reached⟩,
        fun rc _ ended => ?_, fun noName => absurd ⟨name, isName⟩ noName⟩
      exact iff_of_false (runs.ends ended) fun noName => noName ⟨name, isName⟩

/-- The symbol that is looked up for the path of a plugin. -/
theorem loadPlugin_looksUp_disk :
    ∃ name, IsNameOf (bytes "lib/plugin_disk.so") name ∧
      bytes "plugin_disk_init" = initSymbol name :=
  (loadPlugin_looksUp (by decide) longNamed (bytes "lib") noPlugins).1 1 _ _
    (reaches_of_point _ _ [{ }, { }] (by decide))

end Plugin
end EvCollect
