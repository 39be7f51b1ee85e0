import Mathlib.Data.List.TakeWhile
import EvCollect.Config.Properties
import EvCollect.EventQL.Plugin

/-!
# Attaching a target

`pluginAttach` with all the options it reads, and its routes probed value by
value through `evcollect_plugin_getcfgv`. What the threads share of the target is
the target that `buildTarget` makes.
-/

namespace EvCollect

namespace EventQL

/-- What `pluginAttach` sets of an `EventQLTarget`. -/
structure TargetOptions where
  hostname : Bytes
  port : UInt16
  username : Bytes := []
  password : Bytes := []
  authToken : Bytes := []
  httpTimeout : UInt64 := 30000000
  queueMaxLength : UInt64 := 8192
  routes : List EventRouting := []
  deriving DecidableEq, Repr

namespace TargetOptions

def setCredentials
    (target : TargetOptions)
    (username password : Bytes) : TargetOptions :=
  { target with username := username, password := password }

def setAuthToken (target : TargetOptions) (authToken : Bytes) : TargetOptions :=
  { target with authToken := authToken }

def setHTTPTimeout (target : TargetOptions) (usecs : UInt64) : TargetOptions :=
  { target with httpTimeout := usecs }

def setMaxQueueLength
    (target : TargetOptions)
    (queueLen : UInt64) : TargetOptions :=
  { target with queueMaxLength := queueLen }

def addRoute (target : TargetOptions) (event route : Bytes) : TargetOptions :=
  { target with
    routes := target.routes ++ [{ eventNameMatch := event, target := route }] }

end TargetOptions

/-- An option with a text, or its default. -/
def textOption (config : PropertyList) (key : String) (default : Bytes) : Bytes :=
  ((config.get (bytes key)).map cString).getD default

/-- The target with its texts, as `pluginAttach` has it before it reads
`http_timeout`. -/
def nameTarget (config : PropertyList) (port : UInt16) : TargetOptions :=
  let target : TargetOptions :=
    { hostname := textOption config "hostname" (bytes "localhost"), port := port }
  let username := textOption config "username" []
  let password := textOption config "password" []
  let target :=
    if username ≠ [] ∨ password ≠ [] then target.setCredentials username password
    else target
  match config.get (bytes "auth_token") with
  | some authToken => target.setAuthToken (cString authToken)
  | none => target

/-- The inner loop of `pluginAttach` over the routes: the values of a route, up
to the first that is missing. -/
def probeRoute (config : PropertyList) (i j : Nat) : List Bytes :=
  match found : config.getv (bytes "route") i j with
  | some arg => cString arg :: probeRoute config i (j + 1)
  | none => []
termination_by ((config.getAll (bytes "route"))[i]?.getD []).length - j
decreasing_by
  rw [PropertyList.getv_eq] at found
  obtain ⟨values, atRoute, atValue⟩ := Option.bind_eq_some_iff.mp found
  obtain ⟨inRange, -⟩ := List.getElem?_eq_some_iff.mp atValue
  rw [atRoute, Option.getD_some]
  omega

theorem probeRoute_eq (config : PropertyList) (i j : Nat) :
    probeRoute config i j =
      (((config.getAll (bytes "route"))[i]?.getD []).drop j).map cString := by
  fun_induction probeRoute config i j with
  | case1 j arg found inductionHypothesis =>
      rw [PropertyList.getv_eq] at found
      obtain ⟨values, atRoute, atValue⟩ := Option.bind_eq_some_iff.mp found
      obtain ⟨inRange, isValue⟩ := List.getElem?_eq_some_iff.mp atValue
      rw [atRoute, Option.getD_some] at inductionHypothesis ⊢
      rw [List.drop_eq_getElem_cons inRange, isValue, List.map_cons,
        inductionHypothesis]
  | case2 j missing =>
      rw [PropertyList.getv_eq] at missing
      cases atRoute : (config.getAll (bytes "route"))[i]? with
      | none => simp
      | some values =>
          rw [atRoute, Option.bind_some, List.getElem?_eq_none_iff] at missing
          rw [Option.getD_some, List.drop_eq_nil_of_le missing, List.map_nil]

/-- The outer loop of `pluginAttach` over the routes. A route without values
cannot be told from no route. -/
def attachRoutes
    (config : PropertyList)
    (i : Nat)
    (target : TargetOptions) : Except Bytes TargetOptions :=
  match probed : probeRoute config i 0 with
  | [] => .ok target
  | [event, route] => attachRoutes config (i + 1) (target.addRoute event route)
  | _ =>
      .error (bytes ("invalid number of arguments to route. " ++
        "format is: route <event> <target>"))
termination_by (config.getAll (bytes "route")).length - i
decreasing_by
  rw [probeRoute_eq] at probed
  cases atRoute : (config.getAll (bytes "route"))[i]? with
  | none =>
      rw [atRoute] at probed
      cases probed
  | some values =>
      obtain ⟨inRange, -⟩ := List.getElem?_eq_some_iff.mp atRoute
      omega

/-- `pluginAttach` up to the start of the upload thread: the target, or the
message of its error. An option that is not given leaves the default. -/
def attachTarget (config : PropertyList) : Except Bytes TargetOptions :=
  match numericOption config "port" 9175 with
  | none => .error (bytes "invalid port")
  | some port =>
      let target := nameTarget config port.toUInt16
      match numericOption config "http_timeout" target.httpTimeout with
      | none => .error (bytes "invalid value for http_timeout")
      | some httpTimeout =>
          let target := target.setHTTPTimeout httpTimeout
          match numericOption config "queue_maxlen" target.queueMaxLength with
          | none => .error (bytes "invalid value for queue_maxlen")
          | some queueMaxLength =>
              attachRoutes config 0 (target.setMaxQueueLength queueMaxLength)

/-! ## The routes that are read -/

theorem attachRoutes_eq
    (config : PropertyList)
    (i : Nat)
    (target : TargetOptions) :
    attachRoutes config i target =
      (readRoutes ((config.getAll (bytes "route")).drop i) target.routes).map
        fun routes => { target with routes := routes } := by
  have atRoute {i : Nat} {route : List Bytes} (probed : probeRoute config i 0 = route)
      (nonempty : route ≠ []) :
      ∃ values, (config.getAll (bytes "route")).drop i =
        values :: (config.getAll (bytes "route")).drop (i + 1) ∧
          values.map cString = route := by
    rw [probeRoute_eq, List.drop_zero] at probed
    cases here : (config.getAll (bytes "route"))[i]? with
    | none =>
        rw [here] at probed
        exact absurd probed.symm nonempty
    | some values =>
        obtain ⟨inRange, rfl⟩ := List.getElem?_eq_some_iff.mp here
        rw [here] at probed
        exact ⟨_, List.drop_eq_getElem_cons inRange, probed⟩
  fun_induction attachRoutes config i target with
  | case1 i target probed =>
      rw [probeRoute_eq, List.drop_zero] at probed
      cases here : (config.getAll (bytes "route"))[i]? with
      | none =>
          rw [List.drop_eq_nil_of_le (List.getElem?_eq_none_iff.mp here)]
          rfl
      | some values =>
          obtain ⟨inRange, rfl⟩ := List.getElem?_eq_some_iff.mp here
          rw [here, Option.getD_some, List.map_eq_nil_iff] at probed
          rw [List.drop_eq_getElem_cons inRange, probed]
          rfl
  | case2 i target event route probed inductionHypothesis =>
      obtain ⟨values, behind, same⟩ := atRoute probed (List.cons_ne_nil _ _)
      match values, same with
      | [first, second], rfl =>
        rw [behind, inductionHypothesis]
        rfl
  | case3 i target noValues noPair =>
      obtain ⟨values, behind, same⟩ := atRoute rfl noValues
      rw [behind]
      match values with
      | [] => exact absurd same.symm noValues
      | [_] => rfl
      | [first, second] => exact absurd same.symm (noPair _ _)
      | _ :: _ :: _ :: _ => rfl

@[simp] theorem nameTarget_defaults (config : PropertyList) (port : UInt16) :
    (nameTarget config port).port = port ∧
      (nameTarget config port).httpTimeout = 30000000 ∧
      (nameTarget config port).queueMaxLength = 8192 ∧
      (nameTarget config port).routes = [] := by
  unfold nameTarget
  dsimp only
  split <;> split <;> exact ⟨rfl, rfl, rfl, rfl⟩

/-- The attachment as a check of the numbers, one after the other, and of the
routes. -/
theorem attachTarget_eq (config : PropertyList) :
    attachTarget config =
      match numericOption config "port" 9175 with
      | none => .error (bytes "invalid port")
      | some port =>
          match numericOption config "http_timeout" 30000000 with
          | none => .error (bytes "invalid value for http_timeout")
          | some httpTimeout =>
              match numericOption config "queue_maxlen" 8192 with
              | none => .error (bytes "invalid value for queue_maxlen")
              | some queueMaxLength =>
                  (readRoutes (config.getAll (bytes "route")) []).map fun routes =>
                    { nameTarget config port.toUInt16 with
                      httpTimeout := httpTimeout
                      queueMaxLength := queueMaxLength
                      routes := routes } := by
  unfold attachTarget
  cases numericOption config "port" 9175 with
  | none => rfl
  | some port =>
      obtain ⟨-, defaultTimeout, defaultLength, noRoutes⟩ :=
        nameTarget_defaults config port.toUInt16
      dsimp only
      rw [defaultTimeout]
      cases numericOption config "http_timeout" 30000000 with
      | none => rfl
      | some httpTimeout =>
          dsimp only [TargetOptions.setHTTPTimeout]
          rw [defaultLength]
          cases numericOption config "queue_maxlen" 8192 with
          | none => rfl
          | some queueMaxLength =>
              dsimp only [TargetOptions.setMaxQueueLength]
              rw [attachRoutes_eq, List.drop_zero]
              dsimp only
              rw [noRoutes]

/-- Whether the attachment succeeds, and with which target. -/
theorem attachTarget_eq_ok_iff
    {config : PropertyList}
    {target : TargetOptions} :
    attachTarget config = .ok target ↔
      ∃ port httpTimeout queueMaxLength routes,
        numericOption config "port" 9175 = some port ∧
        numericOption config "http_timeout" 30000000 = some httpTimeout ∧
        numericOption config "queue_maxlen" 8192 = some queueMaxLength ∧
        readRoutes (config.getAll (bytes "route")) [] = .ok routes ∧
        target = { nameTarget config port.toUInt16 with
          httpTimeout := httpTimeout
          queueMaxLength := queueMaxLength
          routes := routes } := by
  rw [attachTarget_eq]
  cases numericOption config "port" 9175 with
  | none => simp
  | some port =>
      cases numericOption config "http_timeout" 30000000 with
      | none => simp
      | some httpTimeout =>
          cases numericOption config "queue_maxlen" 8192 with
          | none => simp
          | some queueMaxLength =>
              cases readRoutes (config.getAll (bytes "route")) [] with
              | error message => simp [Except.map]
              | ok routes => simp [Except.map, eq_comm]

/-- What the threads share of the target is what `buildTarget` makes. -/
theorem buildTarget_eq (config : PropertyList) :
    buildTarget config = (attachTarget config).map fun target =>
      { routes := target.routes, queueMaxLength := target.queueMaxLength.toNat } := by
  rw [attachTarget_eq, buildTarget]
  cases numericOption config "port" 9175 with
  | none => rfl
  | some port =>
      cases numericOption config "http_timeout" 30000000 with
      | none => rfl
      | some httpTimeout =>
          cases numericOption config "queue_maxlen" 8192 with
          | none => rfl
          | some queueMaxLength =>
              cases readRoutes (config.getAll (bytes "route")) [] <;> rfl

/-! ## Routes with two values -/

/-- The pair of values that a route is read from. -/
def EventRouting.values (route : EventRouting) : List Bytes :=
  [route.eventNameMatch, route.target]

/-- That the routes are read as they stand in the configuration: the attachment
succeeds if and only if all of them are pairs, and installs these. -/
structure RoutesRead (config : PropertyList) : Prop where
  succeeds : (∃ target, attachTarget config = .ok target) ↔
    ∀ route ∈ config.getAll (bytes "route"), route.length = 2
  installs : ∀ target, attachTarget config = .ok target →
    target.routes.map EventRouting.values = config.getAll (bytes "route")

theorem readRoutes_pairs
    {routes : List (List Bytes)}
    (pairs : ∀ route ∈ routes, route.length = 2)
    (noZero : ∀ route ∈ routes, ∀ value ∈ route, 0 ∉ value)
    (before : List EventRouting) :
    ∃ installed, readRoutes routes before = .ok (before ++ installed) ∧
      installed.map EventRouting.values = routes := by
  induction routes generalizing before with
  | nil => exact ⟨[], by rw [List.append_nil]; rfl, rfl⟩
  | cons route routes inductionHypothesis =>
      rw [List.forall_mem_cons] at pairs noZero
      match route, pairs.1 with
      | [event, target], _ =>
        obtain ⟨installed, read, same⟩ := inductionHypothesis pairs.2 noZero.2
          (before ++ [{ eventNameMatch := cString event, target := cString target }])
        refine ⟨_, read.trans (congrArg _ (List.append_assoc _ _ _)), ?_⟩
        have eventKept := cString_eq_self (noZero.1 event (by simp))
        have targetKept := cString_eq_self (noZero.1 target (by simp))
        rw [List.singleton_append, List.map_cons, same, EventRouting.values,
          eventKept, targetKept]

/-- The first route that is not a pair ends the loop, with an error unless it has
no values. -/
theorem readRoutes_ok_iff
    {routes : List (List Bytes)}
    (before : List EventRouting) :
    (∃ installed, readRoutes routes before = .ok installed) ↔
      ∀ value values, routes.find? (fun route => route.length ≠ 2) ≠
        some (value :: values) := by
  induction routes generalizing before with
  | nil => exact iff_of_true ⟨before, rfl⟩ nofun
  | cons route routes inductionHypothesis =>
      match route with
      | [] => exact iff_of_true ⟨before, rfl⟩ nofun
      | [value] =>
          exact iff_of_false (fun ⟨_, read⟩ => nomatch read)
            fun first => first value [] rfl
      | [event, target] => exact inductionHypothesis _
      | value :: second :: third :: more =>
          exact iff_of_false (fun ⟨_, read⟩ => nomatch read)
            fun first => first value (second :: third :: more) rfl

theorem numericOption_ne_none_iff
    {config : PropertyList}
    {key : String}
    {default : UInt64} :
    numericOption config key default ≠ none ↔
      ∀ text ∈ config.get (bytes key), stoull (cString text) ≠ none := by
  unfold numericOption
  cases config.get (bytes key) <;> simp

/-- The attachment succeeds if and only if the numbers are read and the first
route that is not a pair, if there is one, has no values. -/
theorem attached_iff (config : PropertyList) :
    (∃ target, attachTarget config = .ok target) ↔
      (∀ key ∈ ["port", "http_timeout", "queue_maxlen"],
        ∀ text ∈ config.get (bytes key), stoull (cString text) ≠ none) ∧
      ∀ value values, (config.getAll (bytes "route")).find?
        (fun route => route.length ≠ 2) ≠ some (value :: values) := by
  rw [← readRoutes_ok_iff []]
  constructor
  · rintro ⟨target, attached⟩
    obtain ⟨port, timeout, maxLength, routes, isPort, isTimeout, isMaxLength, read, -⟩ :=
      attachTarget_eq_ok_iff.mp attached
    refine ⟨?_, routes, read⟩
    have given {key default number}
        (isNumber : numericOption config key default = some number) :=
      numericOption_ne_none_iff.mp (Option.ne_none_iff_exists'.mpr ⟨number, isNumber⟩)
    simp only [List.forall_mem_cons]
    exact ⟨given isPort, given isTimeout, given isMaxLength, nofun⟩
  · rintro ⟨valid, routes, read⟩
    have number (key) (isKey : key ∈ ["port", "http_timeout", "queue_maxlen"])
        (default : UInt64) :=
      Option.ne_none_iff_exists'.mp
        ((@numericOption_ne_none_iff config key default).mpr (valid key isKey))
    obtain ⟨port, isPort⟩ := number "port" (by simp) 9175
    obtain ⟨timeout, isTimeout⟩ := number "http_timeout" (by simp) 30000000
    obtain ⟨maxLength, isMaxLength⟩ := number "queue_maxlen" (by simp) 8192
    exact ⟨_, attachTarget_eq_ok_iff.mpr
      ⟨_, _, _, routes, isPort, isTimeout, isMaxLength, read, rfl⟩⟩

/-- The routes are read as they stand in the configuration if and only if the
first route property that is not a pair, if there is one, has values. -/
theorem routesRead_iff
    {config : PropertyList}
    (valid : ∀ key ∈ ["port", "http_timeout", "queue_maxlen"],
      ∀ text ∈ config.get (bytes key), stoull (cString text) ≠ none)
    (noZero : ∀ route ∈ config.getAll (bytes "route"), ∀ value ∈ route, 0 ∉ value) :
    RoutesRead config ↔
      (config.getAll (bytes "route")).find? (fun route => route.length ≠ 2) ≠
        some [] := by
  have succeeds := (attached_iff config).trans (and_iff_right valid)
  cases first : (config.getAll (bytes "route")).find?
      (fun route => route.length ≠ 2) with
  | none =>
      have pairs : ∀ route ∈ config.getAll (bytes "route"), route.length = 2 := by
        simpa using List.find?_eq_none.mp first
      have attaches := succeeds.mpr (by rw [first]; exact nofun)
      refine iff_of_true ⟨iff_of_true attaches pairs, ?_⟩ nofun
      intro target attached
      obtain ⟨installed, read, same⟩ := readRoutes_pairs pairs noZero []
      obtain ⟨_, _, _, routes, -, -, -, readAgain, rfl⟩ :=
        attachTarget_eq_ok_iff.mp attached
      cases read.symm.trans readAgain
      exact same
  | some route =>
      have noPair := List.find?_some first
      have notAll : ¬ ∀ route ∈ config.getAll (bytes "route"), route.length = 2 :=
        fun pairs => absurd (pairs route (List.mem_of_find?_eq_some first))
          (by simpa using noPair)
      cases route with
      | nil =>
          refine iff_of_false (fun read => notAll ?_) (not_not.mpr rfl)
          exact read.succeeds.mp (succeeds.mpr (by rw [first]; exact nofun))
      | cons value values =>
          have fails : ¬ ∃ target, attachTarget config = .ok target :=
            fun attaches => succeeds.mp attaches value values first
          refine iff_of_true ⟨iff_of_false fails notAll, ?_⟩ nofun
          exact fun target attached => absurd ⟨target, attached⟩ fails

/-- A configuration with these routes. -/
def routesConfig (routes : List (List Bytes)) : PropertyList :=
  ⟨routes.map fun route => (bytes "route", route)⟩

theorem routesRead_iff_short :
    RoutesRead (routesConfig [[bytes "sys.alive"]]) ↔
      ((routesConfig [[bytes "sys.alive"]]).getAll (bytes "route")).find?
        (fun route => route.length ≠ 2) ≠ some [] :=
  routesRead_iff (by decide) (by decide)

/-- The route behind one without values is not installed, and there is no error. -/
theorem not_routesRead_empty :
    attachTarget (routesConfig
      [[bytes "sys.alive", bytes "monitor/alive"], [],
        [bytes "sys.load", bytes "monitor/load"]]) =
        .ok { hostname := bytes "localhost", port := 9175, routes :=
          [{ eventNameMatch := bytes "sys.alive"
             target := bytes "monitor/alive" }] } ∧
      ¬ RoutesRead (routesConfig
        [[bytes "sys.alive", bytes "monitor/alive"], [],
          [bytes "sys.load", bytes "monitor/load"]]) := by
  have attached : attachTarget (routesConfig
      [[bytes "sys.alive", bytes "monitor/alive"], [],
        [bytes "sys.load", bytes "monitor/load"]]) =
        .ok { hostname := bytes "localhost", port := 9175, routes :=
          [{ eventNameMatch := bytes "sys.alive"
             target := bytes "monitor/alive" }] } := by
    exact attachTarget_eq_ok_iff.mpr
      ⟨_, _, _, _, rfl, rfl, rfl, rfl, by decide⟩
  refine ⟨attached, fun read => ?_⟩
  exact absurd (read.succeeds.mp ⟨_, attached⟩) (by decide)

end EventQL
end EvCollect
