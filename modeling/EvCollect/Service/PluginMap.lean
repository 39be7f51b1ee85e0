import Mathlib.Data.List.AList
import Mathlib.Data.List.Induction
import EvCollect.Basic

/-!
# The plugin map

The plugins that are known under a name, and whether they are initialized. A
plugin is initialized by the first lookup that succeeds, and freed by the
destructor of the map. The two maps for sources and outputs differ in their
error texts, and in that the destructor goes through one of them only.
-/

namespace EvCollect
namespace Service

structure PluginConfig where
  spoolDir : Bytes
  deriving DecidableEq, Repr

/-- `SourcePluginBinding` and `OutputPluginBinding`. -/
structure PluginBinding (π : Type) where
  plugin : π
  pluginInitialized : Bool
  deriving DecidableEq, Repr

/-- The map of the plugins of one kind. Its order has no meaning. -/
abbrev Bindings (π : Type) : Type :=
  AList fun _ : Bytes => PluginBinding π

/-- A call of `pluginInit`, and what it returned. -/
structure InitCall (π : Type) where
  plugin : π
  config : PluginConfig
  rc : ReturnCode

namespace Bindings

variable {π : Type}

/-- `std::unordered_map::emplace`, which keeps an entry that is there. -/
def emplace
    (name : Bytes)
    (binding : PluginBinding π)
    (bindings : Bindings π) : Bindings π :=
  if name ∈ bindings then bindings else bindings.insert name binding

/-- What `registerSourcePlugin` and `registerOutputPlugin` do. -/
def register
    (name : Bytes)
    (plugin : π)
    (bindings : Bindings π) : Bindings π :=
  bindings.emplace name { plugin := plugin, pluginInitialized := false }

/-- The error of a lookup that finds nothing. -/
def notFound (message name : Bytes) : Except Error π :=
  ReturnCode.makeErrorf "PLUGIN_NOT_FOUND" (message ++ cString name)

/-- What `getSourcePlugin` and `getOutputPlugin` do, where `rc` is what
`pluginInit` returns if it is called: their result, and these calls. -/
def get
    (message : Bytes)
    (config : PluginConfig)
    (name : Bytes)
    (rc : ReturnCode)
    (bindings : Bindings π) :
    (Except Error π × List (InitCall π)) × Bindings π :=
  match bindings.lookup name with
  | none => ((notFound message name, []), bindings)
  | some binding =>
      if binding.pluginInitialized then ((.ok binding.plugin, []), bindings)
      else
        let call :=
          { plugin := binding.plugin
            config := config
            rc := rc }
        match rc with
        | .error error => ((.error error, [call]), bindings)
        | .ok () =>
            ((.ok binding.plugin, [call]),
              bindings.insert name { binding with pluginInitialized := true })

/-- The plugins that are initialized, with their names. -/
def initialized (bindings : Bindings π) : List (Bytes × π) :=
  bindings.entries.filterMap fun entry =>
    if entry.2.pluginInitialized then some (entry.1, entry.2.plugin) else none

end Bindings

structure PluginMap (σ ο : Type) where
  spoolDir : Bytes
  sourcePlugins : Bindings σ := ∅
  outputPlugins : Bindings ο := ∅

namespace PluginMap

variable {σ ο : Type}

/-- `PluginMap::registerSourcePlugin`. -/
def registerSourcePlugin
    (name : Bytes)
    (plugin : σ)
    (map : PluginMap σ ο) : PluginMap σ ο :=
  { map with sourcePlugins := map.sourcePlugins.register name plugin }

/-- `PluginMap::getSourcePlugin`. -/
def getSourcePlugin
    (name : Bytes)
    (rc : ReturnCode)
    (map : PluginMap σ ο) :
    (Except Error σ × List (InitCall σ)) × PluginMap σ ο :=
  let found := map.sourcePlugins.get (bytes "plugin not found: ")
    { spoolDir := map.spoolDir } name rc
  (found.1, { map with sourcePlugins := found.2 })

/-- `PluginMap::registerOutputPlugin`. -/
def registerOutputPlugin
    (name : Bytes)
    (plugin : ο)
    (map : PluginMap σ ο) : PluginMap σ ο :=
  { map with outputPlugins := map.outputPlugins.register name plugin }

/-- `PluginMap::getOutputPlugin`. -/
def getOutputPlugin
    (name : Bytes)
    (rc : ReturnCode)
    (map : PluginMap σ ο) :
    (Except Error ο × List (InitCall ο)) × PluginMap σ ο :=
  let found := map.outputPlugins.get (bytes "output plugin not found: ")
    { spoolDir := map.spoolDir } name rc
  (found.1, { map with outputPlugins := found.2 })

/-- The calls of `pluginFree` in the destructor, for source and for output
plugins. Its loop goes through the sources only. -/
def destroy (map : PluginMap σ ο) : List (Bytes × σ) × List (Bytes × ο) :=
  (map.sourcePlugins.initialized, [])

end PluginMap

/-! ## What callers see -/

/-- A call of the functions for one kind of plugins. -/
inductive Request (π : Type)
  | register (name : Bytes) (plugin : π)
  /-- A lookup, with what `pluginInit` returns if it is called. -/
  | get (name : Bytes) (rc : ReturnCode)

/-- A call that has returned, with the calls of `pluginInit` in it. -/
inductive Outcome (π : Type)
  | registered (name : Bytes) (plugin : π)
  | lookedUp (name : Bytes) (inits : List (InitCall π)) (result : Except Error π)

namespace Outcome

variable {π : Type}

/-- The plugin that was registered first under a name. -/
def plugin (history : List (Outcome π)) (name : Bytes) : Option π :=
  history.findSome? fun
    | registered other plugin => if other = name then some plugin else none
    | lookedUp .. => none

/-- Some lookup of a name has called `pluginInit` with success. -/
def initialized (history : List (Outcome π)) (name : Bytes) : Bool :=
  history.any fun
    | registered .. => false
    | lookedUp other inits _ =>
        decide (other = name) && inits.any fun call =>
          ReturnCode.isSuccess call.rc

variable {history : List (Outcome π)}
variable {name : Bytes}

theorem plugin_register (other : Bytes) (registeredPlugin : π) :
    plugin (history ++ [.registered other registeredPlugin]) name =
      (plugin history name).or
        (if other = name then some registeredPlugin else none) := by
  rw [plugin, List.findSome?_append]
  congr 1
  rw [List.findSome?_singleton]

theorem plugin_lookedUp
    (other : Bytes)
    (inits : List (InitCall π))
    (result : Except Error π) :
    plugin (history ++ [.lookedUp other inits result]) name =
      plugin history name := by
  rw [plugin, List.findSome?_append, List.findSome?_singleton, Option.or_none]
  rfl

theorem initialized_register (other : Bytes) (registeredPlugin : π) :
    initialized (history ++ [.registered other registeredPlugin]) name =
      initialized history name := by
  rw [initialized, List.any_append, List.any_cons, List.any_nil, Bool.or_false,
    Bool.or_false]
  rfl

theorem initialized_lookedUp
    (other : Bytes)
    (inits : List (InitCall π))
    (result : Except Error π) :
    initialized (history ++ [.lookedUp other inits result]) name =
      (initialized history name ||
        decide (other = name) && inits.any fun call =>
          ReturnCode.isSuccess call.rc) := by
  rw [initialized, List.any_append, List.any_cons, List.any_nil, Bool.or_false]
  rfl

end Outcome

/-- What a lookup does, by what has happened before it. -/
structure Obeys
    {π : Type}
    (message : Bytes)
    (config : PluginConfig)
    (before : List (Outcome π))
    (name : Bytes)
    (inits : List (InitCall π))
    (result : Except Error π) : Prop where
  missing : Outcome.plugin before name = none →
    inits = [] ∧ result = Bindings.notFound message name
  again : ∀ {plugin : π}, Outcome.plugin before name = some plugin →
    Outcome.initialized before name = true →
    inits = [] ∧ result = .ok plugin
  first : ∀ {plugin : π}, Outcome.plugin before name = some plugin →
    Outcome.initialized before name = false →
    ∃ rc : ReturnCode,
      inits = [{ plugin := plugin, config := config, rc := rc }] ∧
        result = rc.map fun _ => plugin

section

variable {π : Type}
variable {message : Bytes}
variable {config : PluginConfig}
variable {before : List (Outcome π)}
variable {name : Bytes}
variable {inits : List (InitCall π)}
variable {result : Except Error π}

theorem Obeys.of_missing
    (unknown : Outcome.plugin before name = none)
    (noInit : inits = [])
    (fails : result = Bindings.notFound message name) :
    Obeys message config before name inits result where
  missing := fun _ => ⟨noInit, fails⟩
  again := fun known => by rw [unknown] at known; cases known
  first := fun known => by rw [unknown] at known; cases known

theorem Obeys.of_again
    {plugin : π}
    (known : Outcome.plugin before name = some plugin)
    (flag : Outcome.initialized before name = true)
    (noInit : inits = [])
    (found : result = .ok plugin) :
    Obeys message config before name inits result where
  missing := fun unknown => by rw [known] at unknown; cases unknown
  again := fun other _ => by
    rw [known] at other
    cases other
    exact ⟨noInit, found⟩
  first := fun _ noFlag => by rw [flag] at noFlag; cases noFlag

theorem Obeys.of_first
    {plugin : π}
    (known : Outcome.plugin before name = some plugin)
    (noFlag : Outcome.initialized before name = false)
    (rc : ReturnCode)
    (called : inits = [{ plugin := plugin, config := config, rc := rc }])
    (answered : result = rc.map fun _ => plugin) :
    Obeys message config before name inits result where
  missing := fun unknown => by rw [known] at unknown; cases unknown
  again := fun _ flag => by rw [noFlag] at flag; cases flag
  first := fun other _ => by
    rw [known] at other
    cases other
    exact ⟨rc, called, answered⟩

end

/-- A map is what the calls before have left of it. -/
structure Bindings.Reflects
    {π : Type}
    (bindings : Bindings π)
    (history : List (Outcome π)) : Prop where
  lookup : ∀ name, bindings.lookup name =
    (Outcome.plugin history name).map fun plugin =>
      { plugin := plugin
        pluginInitialized := Outcome.initialized history name }
  known : ∀ {name}, Outcome.plugin history name = none →
    Outcome.initialized history name = false

namespace Bindings

variable {π : Type}
variable {bindings : Bindings π}
variable {history : List (Outcome π)}

theorem reflects_empty : (∅ : Bindings π).Reflects [] :=
  ⟨fun name => AList.lookup_empty name, fun _ => rfl⟩

theorem Reflects.register
    (reflects : bindings.Reflects history)
    (name : Bytes)
    (plugin : π) :
    (bindings.register name plugin).Reflects
      (history ++ [.registered name plugin]) := by
  constructor
  · intro other
    have before := reflects.lookup other
    rw [Outcome.plugin_register, Outcome.initialized_register,
      Bindings.register, emplace]
    by_cases same : name = other
    · subst same
      rw [if_pos rfl]
      cases known : Outcome.plugin history name with
      | none =>
          rw [known] at before
          rw [if_neg (AList.lookup_eq_none.mp before), AList.lookup_insert,
            reflects.known known]
          rfl
      | some first =>
          rw [known] at before
          have present : name ∈ bindings := by
            rw [← AList.lookup_isSome, before]
            rfl
          rw [if_pos present, before]
          rfl
    · rw [if_neg same, Option.or_none, ← before]
      split
      · rfl
      · exact AList.lookup_insert_ne (Ne.symm same)
  · intro other unknown
    rw [Outcome.plugin_register, Option.or_eq_none_iff] at unknown
    rw [Outcome.initialized_register]
    exact reflects.known unknown.1

/-- A lookup that does not succeed in calling `pluginInit` leaves the map. -/
theorem Reflects.lookedUp
    (reflects : bindings.Reflects history)
    {name : Bytes}
    {inits : List (InitCall π)}
    (noSuccess : ∀ call ∈ inits, ReturnCode.isSuccess call.rc = false)
    (result : Except Error π) :
    bindings.Reflects (history ++ [.lookedUp name inits result]) := by
  have none : (inits.any fun call => ReturnCode.isSuccess call.rc) = false :=
    List.any_eq_false.mpr fun call member => by simp [noSuccess call member]
  constructor
  · intro other
    rw [Outcome.plugin_lookedUp, Outcome.initialized_lookedUp, none,
      Bool.and_false, Bool.or_false]
    exact reflects.lookup other
  · intro other unknown
    rw [Outcome.plugin_lookedUp] at unknown
    rw [Outcome.initialized_lookedUp, none, Bool.and_false, Bool.or_false]
    exact reflects.known unknown

/-- The first lookup that succeeds in it sets the flag of the entry. -/
theorem Reflects.initialize
    (reflects : bindings.Reflects history)
    {name : Bytes}
    {plugin : π}
    (known : Outcome.plugin history name = some plugin)
    (config : PluginConfig) :
    Reflects
      (bindings.insert name
        { plugin := plugin
          pluginInitialized := true })
      (history ++ [.lookedUp name
        [{ plugin := plugin
           config := config
           rc := .ok () }] (.ok plugin)]) := by
  constructor
  · intro other
    rw [Outcome.plugin_lookedUp, Outcome.initialized_lookedUp]
    by_cases same : name = other
    · subst same
      rw [AList.lookup_insert, known, decide_eq_true rfl, Bool.true_and]
      simp [ReturnCode.isSuccess]
    · rw [AList.lookup_insert_ne (Ne.symm same), decide_eq_false same,
        Bool.false_and, Bool.or_false]
      exact reflects.lookup other
  · intro other unknown
    rw [Outcome.plugin_lookedUp] at unknown
    have differs : name ≠ other := by
      rintro rfl
      rw [known] at unknown
      cases unknown
    rw [Outcome.initialized_lookedUp, decide_eq_false differs, Bool.false_and,
      Bool.or_false]
    exact reflects.known unknown

theorem Reflects.get
    (reflects : bindings.Reflects history)
    (message : Bytes)
    (config : PluginConfig)
    (name : Bytes)
    (rc : ReturnCode) :
    let found := bindings.get message config name rc
    Obeys message config history name found.1.2 found.1.1 ∧
      found.2.Reflects (history ++ [.lookedUp name found.1.2 found.1.1]) := by
  have before := reflects.lookup name
  rw [Bindings.get]
  cases known : Outcome.plugin history name with
  | none =>
      rw [known] at before
      rw [before]
      exact ⟨.of_missing known rfl rfl, reflects.lookedUp (by simp) _⟩
  | some plugin =>
      rw [known] at before
      rw [before]
      cases flag : Outcome.initialized history name with
      | true =>
          exact ⟨.of_again known flag rfl rfl, reflects.lookedUp (by simp) _⟩
      | false =>
          cases rc with
          | error error =>
              refine ⟨.of_first known flag (.error error) rfl rfl, ?_⟩
              apply reflects.lookedUp
              intro call member
              rw [List.mem_singleton.mp member]
              rfl
          | ok value =>
              exact ⟨.of_first known flag (.ok value) rfl rfl,
                reflects.initialize known config⟩

/-! ## Runs for one kind -/

/-- A call, with what callers have seen before. -/
def serve
    (message : Bytes)
    (config : PluginConfig)
    (served : List (Outcome π) × Bindings π) :
    Request π → List (Outcome π) × Bindings π
  | .register name plugin =>
      (served.1 ++ [.registered name plugin], served.2.register name plugin)
  | .get name rc =>
      let found := served.2.get message config name rc
      (served.1 ++ [.lookedUp name found.1.2 found.1.1], found.2)

/-- All calls, from an empty map on. -/
def serveAll
    (message : Bytes)
    (config : PluginConfig)
    (requests : List (Request π)) : List (Outcome π) × Bindings π :=
  requests.foldl (serve message config) ([], ∅)

variable {message : Bytes}
variable {config : PluginConfig}

theorem serveAll_concat
    (requests : List (Request π))
    (request : Request π) :
    serveAll message config (requests ++ [request]) =
      serve message config (serveAll message config requests) request :=
  List.foldl_concat ..

theorem serveAll_reflects (requests : List (Request π)) :
    (serveAll message config requests).2.Reflects
      (serveAll message config requests).1 := by
  induction requests using List.reverseRecOn with
  | nil => exact reflects_empty
  | append_singleton requests request inductionHypothesis =>
      rw [serveAll_concat]
      cases request with
      | register name plugin => exact inductionHypothesis.register name plugin
      | get name rc => exact (inductionHypothesis.get message config name rc).2

/-- The last element of a list, or one before it. -/
theorem split_concat
    {α : Type}
    {list before after : List α}
    {last element : α}
    (split : list ++ [last] = before ++ element :: after) :
    (before = list ∧ element = last) ∨
      ∃ rest, list = before ++ element :: rest := by
  rcases List.eq_nil_or_concat after with rfl | ⟨rest, other, rfl⟩
  · obtain ⟨same, lasts⟩ := List.append_inj' split rfl
    exact .inl ⟨same.symm, (List.singleton_inj.mp lasts).symm⟩
  · right
    rw [List.concat_eq_append, ← List.cons_append, ← List.append_assoc] at split
    exact ⟨rest, (List.append_inj' split rfl).1⟩

/-- Every lookup does what the calls before it say. -/
theorem serveAll_obeys
    (requests : List (Request π))
    {before after : List (Outcome π)}
    {name : Bytes}
    {inits : List (InitCall π)}
    {result : Except Error π}
    (split : (serveAll message config requests).1 =
      before ++ .lookedUp name inits result :: after) :
    Obeys message config before name inits result := by
  induction requests using List.reverseRecOn generalizing after with
  | nil => exact absurd split.symm (by simp [serveAll])
  | append_singleton requests request inductionHypothesis =>
      rw [serveAll_concat] at split
      have reflects := @serveAll_reflects _ message config requests
      cases request with
      | register other plugin =>
          rcases split_concat split with ⟨-, last⟩ | ⟨rest, split⟩
          · cases last
          · exact inductionHypothesis split
      | get other rc =>
          rcases split_concat split with ⟨rfl, last⟩ | ⟨rest, split⟩
          · cases last
            exact (reflects.get message config _ _).1
          · exact inductionHypothesis split

/-! ## Initialized plugins -/

theorem mem_initialized
    {name : Bytes}
    {plugin : π} :
    (name, plugin) ∈ bindings.initialized ↔
      bindings.lookup name =
        some { plugin := plugin, pluginInitialized := true } := by
  change _ ↔ _ ∈ bindings.lookup name
  rw [AList.mem_lookup_iff, initialized, List.mem_filterMap]
  constructor
  · rintro ⟨⟨other, found, flag⟩, member, entry⟩
    cases flag with
    | false => cases entry
    | true =>
        cases entry
        exact member
  · exact fun member => ⟨_, member, rfl⟩

theorem nodup_initialized (bindings : Bindings π) :
    (bindings.initialized.map Prod.fst).Nodup := by
  have names : ∀ entries : List (Sigma fun _ : Bytes => PluginBinding π),
      ((entries.filterMap fun entry =>
        if entry.2.pluginInitialized then some (entry.1, entry.2.plugin)
        else none).map Prod.fst).Sublist (entries.map Sigma.fst) := by
    intro entries
    induction entries with
    | nil => exact .slnil
    | cons entry entries inductionHypothesis =>
        rw [List.filterMap_cons]
        cases flag : entry.2.pluginInitialized with
        | false => exact inductionHypothesis.cons entry.1
        | true => exact inductionHypothesis.cons_cons entry.1
  exact (names bindings.entries).nodup bindings.keys_nodup

theorem plugin_serveAll
    (requests : List (Request π))
    (name : Bytes) :
    Outcome.plugin (serveAll message config requests).1 name ≠ none ↔
      ∃ plugin, .register name plugin ∈ requests := by
  induction requests using List.reverseRecOn with
  | nil => simp [serveAll, Outcome.plugin]
  | append_singleton requests request inductionHypothesis =>
      rw [serveAll_concat]
      cases request with
      | register other plugin =>
          rw [serve, Outcome.plugin_register]
          by_cases same : other = name
          · rw [if_pos same, same]
            simp only [ne_eq, Option.or_eq_none_iff, reduceCtorEq, and_false,
              not_false_eq_true, true_iff]
            exact ⟨plugin, List.mem_append_right _ List.mem_cons_self⟩
          · rw [if_neg same, Option.or_none, inductionHypothesis]
            simp [Ne.symm same]
      | get other rc =>
          rw [serve, Outcome.plugin_lookedUp, inductionHypothesis]
          simp

/-- Some lookup of a registered plugin finds that `pluginInit` succeeds. -/
def Starts (requests : List (Request π)) : Prop :=
  ∃ before name rc after plugin,
    requests = before ++ .get name rc :: after ∧
      .register name plugin ∈ before ∧ ReturnCode.isSuccess rc = true

theorem get_any
    (reflects : bindings.Reflects history)
    (message : Bytes)
    (config : PluginConfig)
    (name : Bytes)
    (rc : ReturnCode) :
    ((bindings.get message config name rc).1.2.any fun call =>
        ReturnCode.isSuccess call.rc) = true ↔
      Outcome.plugin history name ≠ none ∧
        Outcome.initialized history name = false ∧
          ReturnCode.isSuccess rc = true := by
  have before := reflects.lookup name
  rw [Bindings.get]
  cases known : Outcome.plugin history name with
  | none =>
      rw [known] at before
      rw [before]
      simp
  | some plugin =>
      rw [known] at before
      rw [before]
      cases flag : Outcome.initialized history name with
      | true => simp
      | false =>
          cases rc with
          | error error => simp [ReturnCode.isSuccess]
          | ok value => simp [ReturnCode.isSuccess]

theorem starts_concat
    (requests : List (Request π))
    (request : Request π) :
    Starts (requests ++ [request]) ↔
      Starts requests ∨
        ∃ name rc plugin, request = .get name rc ∧
          .register name plugin ∈ requests ∧
            ReturnCode.isSuccess rc = true := by
  constructor
  · rintro ⟨before, name, rc, after, plugin, split, member, success⟩
    rcases split_concat split with ⟨rfl, last⟩ | ⟨rest, split⟩
    · exact .inr ⟨name, rc, plugin, last.symm, member, success⟩
    · exact .inl ⟨before, name, rc, rest, plugin, split, member, success⟩
  · rintro (⟨before, name, rc, after, plugin, rfl, member, success⟩ |
      ⟨name, rc, plugin, rfl, member, success⟩)
    · exact ⟨before, name, rc, after ++ [request], plugin, by simp, member,
        success⟩
    · exact ⟨requests, name, rc, [], plugin, rfl, member, success⟩

/-- A plugin has been initialized if and only if a lookup has started it. -/
theorem initialized_serveAll (requests : List (Request π)) :
    (∃ name, Outcome.initialized (serveAll message config requests).1 name =
      true) ↔ Starts requests := by
  induction requests using List.reverseRecOn with
  | nil =>
      constructor
      · rintro ⟨name, flag⟩
        cases flag
      · rintro ⟨before, name, rc, after, plugin, split, -⟩
        simp at split
  | append_singleton requests request inductionHypothesis =>
      rw [serveAll_concat, starts_concat, ← inductionHypothesis]
      cases request with
      | register other plugin =>
          simp only [serve, Outcome.initialized_register]
          simp
      | get other rc =>
          have known := @plugin_serveAll _ message config requests other
          have started := get_any
            (@serveAll_reflects _ message config requests)
            message config other rc
          simp only [serve, Outcome.initialized_lookedUp, Bool.or_eq_true,
            Bool.and_eq_true, decide_eq_true_eq, started]
          constructor
          · rintro ⟨name, flag | ⟨rfl, registered, -, success⟩⟩
            · exact .inl ⟨name, flag⟩
            · obtain ⟨plugin, member⟩ := known.mp registered
              exact .inr ⟨_, _, plugin, rfl, member, success⟩
          · rintro (⟨name, flag⟩ | ⟨name, _, plugin, equal, member, success⟩)
            · exact ⟨name, .inl flag⟩
            · cases equal
              cases flag : Outcome.initialized
                  (serveAll message config requests).1 other with
              | true => exact ⟨other, .inl flag⟩
              | false =>
                  exact ⟨other, .inr
                    ⟨rfl, known.mpr ⟨plugin, member⟩, rfl, success⟩⟩

end Bindings

/-! ## The life of a plugin map -/

/-- What the calls for one kind of plugins, and the destructor, amount to. -/
structure Lifecycle
    {π : Type}
    (message : Bytes)
    (config : PluginConfig)
    (history : List (Outcome π))
    (freed : List (Bytes × π)) : Prop where
  /-- A lookup of a plugin that is not initialized calls `pluginInit`, any other
  one does not, and the result is the plugin or the error. -/
  obeys : ∀ {before after name inits result},
    history = before ++ .lookedUp name inits result :: after →
    Obeys message config before name inits result
  /-- What is handed out is the plugin of that name, and is initialized. -/
  handedOut : ∀ {before after name inits plugin},
    history = before ++ .lookedUp name inits (.ok plugin) :: after →
    Outcome.plugin history name = some plugin ∧
      Outcome.initialized (before ++ [.lookedUp name inits (.ok plugin)]) name =
        true
  /-- The destructor frees the initialized plugins and no others. -/
  frees : ∀ name plugin, (name, plugin) ∈ freed ↔
    Outcome.plugin history name = some plugin ∧
      Outcome.initialized history name = true
  once : (freed.map Prod.fst).Nodup

section

variable {π : Type}
variable {message : Bytes}
variable {config : PluginConfig}

theorem Outcome.plugin_append
    {before : List (Outcome π)}
    {name : Bytes}
    {registeredPlugin : π}
    (known : plugin before name = some registeredPlugin)
    (after : List (Outcome π)) :
    plugin (before ++ after) name = some registeredPlugin := by
  rw [plugin] at known
  rw [plugin, List.findSome?_append, known, Option.some_or]

theorem Obeys.handedOut
    {before : List (Outcome π)}
    {name : Bytes}
    {inits : List (InitCall π)}
    {plugin : π}
    (obeys : Obeys message config before name inits (.ok plugin)) :
    Outcome.plugin before name = some plugin ∧
      Outcome.initialized (before ++ [.lookedUp name inits (.ok plugin)]) name =
        true := by
  rw [Outcome.initialized_lookedUp]
  cases known : Outcome.plugin before name with
  | none => cases (obeys.missing known).2
  | some first =>
      cases flag : Outcome.initialized before name with
      | true =>
          obtain ⟨-, same⟩ := obeys.again known flag
          cases same
          exact ⟨rfl, rfl⟩
      | false =>
          obtain ⟨rc, called, answered⟩ := obeys.first known flag
          cases rc with
          | error error => cases answered
          | ok value =>
              cases answered
              rw [called]
              simp [ReturnCode.isSuccess]

theorem lifecycle_serveAll
    (requests : List (Request π))
    {freed : List (Bytes × π)}
    (all : freed = (Bindings.serveAll message config requests).2.initialized) :
    Lifecycle message config (Bindings.serveAll message config requests).1
      freed where
  obeys := Bindings.serveAll_obeys requests
  handedOut := by
    intro before after name inits plugin split
    obtain ⟨known, flag⟩ := (Bindings.serveAll_obeys requests split).handedOut
    refine ⟨?_, flag⟩
    rw [split]
    exact Outcome.plugin_append known _
  frees := by
    intro name plugin
    rw [all, Bindings.mem_initialized,
      (Bindings.serveAll_reflects requests).lookup]
    cases Outcome.plugin (Bindings.serveAll message config requests).1 name with
    | none => simp
    | some first => simp
  once := by
    rw [all]
    exact Bindings.nodup_initialized _

end

/-- A call of the plugin map, for a source or for an output. -/
inductive PluginCall (σ ο : Type)
  | source (request : Request σ)
  | output (request : Request ο)

/-- The plugin map, and what the callers have seen of it. -/
structure PluginRun (σ ο : Type) where
  map : PluginMap σ ο
  sources : List (Outcome σ) := []
  outputs : List (Outcome ο) := []

namespace PluginRun

variable {σ ο : Type}

def call (run : PluginRun σ ο) : PluginCall σ ο → PluginRun σ ο
  | .source (.register name plugin) =>
      { run with
        map := run.map.registerSourcePlugin name plugin
        sources := run.sources ++ [.registered name plugin] }
  | .source (.get name rc) =>
      let found := run.map.getSourcePlugin name rc
      { run with
        map := found.2
        sources := run.sources ++ [.lookedUp name found.1.2 found.1.1] }
  | .output (.register name plugin) =>
      { run with
        map := run.map.registerOutputPlugin name plugin
        outputs := run.outputs ++ [.registered name plugin] }
  | .output (.get name rc) =>
      let found := run.map.getOutputPlugin name rc
      { run with
        map := found.2
        outputs := run.outputs ++ [.lookedUp name found.1.2 found.1.1] }

/-- All calls on a new map. -/
def ofCalls (spoolDir : Bytes) (calls : List (PluginCall σ ο)) : PluginRun σ ο :=
  calls.foldl call { map := { spoolDir := spoolDir } }

def sourceRequests (calls : List (PluginCall σ ο)) : List (Request σ) :=
  calls.filterMap fun
    | .source request => some request
    | .output _ => none

def outputRequests (calls : List (PluginCall σ ο)) : List (Request ο) :=
  calls.filterMap fun
    | .source _ => none
    | .output request => some request

theorem ofCalls_concat
    (spoolDir : Bytes)
    (calls : List (PluginCall σ ο))
    (last : PluginCall σ ο) :
    ofCalls spoolDir (calls ++ [last]) = (ofCalls spoolDir calls).call last :=
  List.foldl_concat ..

/-- The two kinds of plugins do not meet. -/
theorem ofCalls_eq (spoolDir : Bytes) (calls : List (PluginCall σ ο)) :
    ((ofCalls spoolDir calls).sources,
        (ofCalls spoolDir calls).map.sourcePlugins) =
      Bindings.serveAll (bytes "plugin not found: ") { spoolDir := spoolDir }
        (sourceRequests calls) ∧
    ((ofCalls spoolDir calls).outputs,
        (ofCalls spoolDir calls).map.outputPlugins) =
      Bindings.serveAll (bytes "output plugin not found: ")
        { spoolDir := spoolDir } (outputRequests calls) ∧
    (ofCalls spoolDir calls).map.spoolDir = spoolDir := by
  induction calls using List.reverseRecOn with
  | nil => exact ⟨rfl, rfl, rfl⟩
  | append_singleton calls last inductionHypothesis =>
      obtain ⟨sources, outputs, spool⟩ := inductionHypothesis
      rw [ofCalls_concat, sourceRequests, outputRequests, List.filterMap_append,
        List.filterMap_append]
      cases last with
      | source request =>
          refine ⟨?_, ?_, ?_⟩
          · rw [← sourceRequests]
            change _ = Bindings.serveAll _ _ (sourceRequests calls ++ [request])
            rw [Bindings.serveAll_concat, ← sources]
            cases request with
            | register name plugin => rfl
            | get name rc =>
                rw [call, PluginMap.getSourcePlugin, spool]
                rfl
          · rw [← outputRequests]
            change _ = Bindings.serveAll _ _ (outputRequests calls ++ [])
            rw [List.append_nil, ← outputs]
            cases request <;> rfl
          · cases request <;> exact spool
      | output request =>
          refine ⟨?_, ?_, ?_⟩
          · change _ = Bindings.serveAll _ _ (sourceRequests calls ++ [])
            rw [List.append_nil, ← sources]
            cases request <;> rfl
          · change _ = Bindings.serveAll _ _ (outputRequests calls ++ [request])
            rw [Bindings.serveAll_concat, ← outputs]
            cases request with
            | register name plugin => rfl
            | get name rc =>
                rw [call, PluginMap.getOutputPlugin, spool]
                rfl
          · cases request <;> exact spool

end PluginRun

open PluginRun

/-- Every plugin is initialized, handed out and freed as it should be, if and only
if no lookup starts an output plugin: nothing frees those. -/
theorem plugin_lifecycle_iff
    {σ ο : Type}
    (spoolDir : Bytes)
    (calls : List (PluginCall σ ο)) :
    (Lifecycle (bytes "plugin not found: ") { spoolDir := spoolDir }
        (ofCalls spoolDir calls).sources
        (ofCalls spoolDir calls).map.destroy.1 ∧
      Lifecycle (bytes "output plugin not found: ") { spoolDir := spoolDir }
        (ofCalls spoolDir calls).outputs
        (ofCalls spoolDir calls).map.destroy.2) ↔
      ¬ Bindings.Starts (outputRequests calls) := by
  obtain ⟨sources, outputs, -⟩ := ofCalls_eq spoolDir calls
  have sourceHistory := congrArg Prod.fst sources
  have sourceMap := congrArg Prod.snd sources
  have outputHistory := congrArg Prod.fst outputs
  dsimp only at sourceHistory sourceMap outputHistory
  have reflects := @Bindings.serveAll_reflects _
    (bytes "output plugin not found: ") { spoolDir := spoolDir }
    (outputRequests calls)
  rw [sourceHistory, outputHistory, PluginMap.destroy, sourceMap,
    ← @Bindings.initialized_serveAll _ (bytes "output plugin not found: ")
      { spoolDir := spoolDir }]
  constructor
  · rintro ⟨-, lifecycle⟩ ⟨name, flag⟩
    cases known : Outcome.plugin (Bindings.serveAll
        (bytes "output plugin not found: ") { spoolDir := spoolDir }
        (outputRequests calls)).1 name with
    | none =>
        rw [reflects.known known] at flag
        cases flag
    | some plugin => cases (lifecycle.frees name plugin).mpr ⟨known, flag⟩
  · intro noStart
    refine ⟨lifecycle_serveAll _ rfl, lifecycle_serveAll _ ?_⟩
    symm
    apply List.eq_nil_iff_forall_not_mem.mpr
    rintro ⟨name, plugin⟩ member
    rw [Bindings.mem_initialized, reflects.lookup] at member
    obtain ⟨first, -, entry⟩ := Option.map_eq_some_iff.mp member
    exact noStart ⟨name, congrArg PluginBinding.pluginInitialized entry⟩

/-- An output plugin is registered, and looked up with success. -/
def oneOutput : List (PluginCall Unit Unit) :=
  [.output (.register (bytes "eventql") ()),
    .output (.get (bytes "eventql") (.ok ()))]

theorem oneOutput_not_freed :
    ¬ (Lifecycle (bytes "plugin not found: ") { spoolDir := [] }
        (ofCalls [] oneOutput).sources (ofCalls [] oneOutput).map.destroy.1 ∧
      Lifecycle (bytes "output plugin not found: ") { spoolDir := [] }
        (ofCalls [] oneOutput).outputs
        (ofCalls [] oneOutput).map.destroy.2) := by
  rintro ⟨-, lifecycle⟩
  have freed := (lifecycle.frees (bytes "eventql") ()).mpr
    ⟨by decide, by decide⟩
  cases freed

end Service
end EvCollect
