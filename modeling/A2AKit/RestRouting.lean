/-
The way of a REST request from the client to its endpoint.

A client quotes the ids and puts them into the path, the server unquotes the path and takes the
first route that matches.  The HTTP library of the client and the router of the server are not part
of the program: `HttpStack` is what they do, and `HttpStack.Documented` what is relied on.

* `requests_routed` — under both protocol versions every call reaches the endpoint of its operation,
  with the ids as they were.
-/
import A2AKit.Endpoints
import A2AKit.PercentEncoding
import Mathlib.Data.List.Basic
import Mathlib.Data.List.Infix

namespace A2AKit

namespace RestRouting

open PercentEncoding Endpoints

inductive HttpMethod
  | get
  | post
  | delete
  deriving DecidableEq, Repr

/-! ### Routes -/

/-- A segment of the path of a route: fixed, or a parameter before a fixed end. -/
inductive Segment
  | fixed (text : String)
  | param (suffix : String)
  deriving DecidableEq, Repr

structure Route where
  method : HttpMethod
  path : List Segment
  route : RestRoute
  deriving DecidableEq, Repr

/-- The prefix of the paths of a router. -/
def routerPrefix : ProtocolVersion → List Segment
  | .v03 => [.fixed "v1"]
  | .v10 => []

/-- The routes of `build_a2a_router` and `build_a2a_router_v10`, in their order. -/
def routes (v : ProtocolVersion) : List Route :=
  let task : List Segment := [.fixed "tasks", .param ""]
  let configs := task ++ [.fixed "pushNotificationConfigs"]
  [(.post, [.fixed "message:send"], .messageSend),
    (.post, [.fixed "message:stream"], .messageStream),
    (.get, task, .tasksGet),
    (.get, [.fixed "tasks"], .tasksList),
    (.post, [.fixed "tasks", .param ":cancel"], .tasksCancel),
    (.post, [.fixed "tasks", .param ":subscribe"], .tasksSubscribe),
    (.post, configs, .pushConfigSet),
    (.get, configs ++ [.param ""], .pushConfigGetById),
    (.get, configs, .pushConfigList),
    (.delete, configs ++ [.param ""], .pushConfigDelete),
    (.get, [.fixed "card"], .card),
    (.get, [.fixed "health"], .healthCheck),
    (.get, [.fixed "health", .fixed "ready"], .readinessCheck)].map
    fun (method, path, route) => { method, path := routerPrefix v ++ path, route }

/-- The parameters in a segment; a parameter is not empty. -/
def matchSegment : Segment → List Char → Option (List (List Char))
  | .fixed text, s => if s = text.toList then some [] else none
  | .param suffix, s =>
    if suffix.toList.isSuffixOf s ∧ suffix.toList.length < s.length then
      some [s.take (s.length - suffix.toList.length)]
    else none

def matchPath : List Segment → List (List Char) → Option (List (List Char))
  | [], [] => some []
  | g :: path, s :: segments =>
    (matchSegment g s).bind fun params => (matchPath path segments).map (params ++ ·)
  | _, _ => none

/-- The parameters of a request with these segments, if it is one for the route. -/
def Route.params (r : Route) (method : HttpMethod) (segments : List (List Char)) :
    Option (List (List Char)) :=
  if r.method = method then matchPath r.path segments else none

/-- The path with these segments. -/
def pathOf (segments : List (List Char)) : List Char := '/' :: ['/'].intercalate segments

/-! ### The libraries -/

/-- What the HTTP library of the client makes of a path, and which route the router of the server
takes. -/
structure HttpStack where
  normalize : List Char → List Char
  dispatch : List Route → HttpMethod → List Char → Option (RestRoute × List (List Char))

/-- A segment of its own: it has no `/` and is none of the segments that name a directory. -/
def Whole (s : List Char) : Prop := '/' ∉ s ∧ s ≠ ['.'] ∧ s ≠ ['.', '.']

/-- A path of such segments is sent as it is, and the routes are tried in their order. -/
structure HttpStack.Documented (stack : HttpStack) : Prop where
  normalize : ∀ segments, segments ≠ [] → (∀ s ∈ segments, Whole s) →
    stack.normalize (pathOf segments) = pathOf segments
  dispatch : ∀ before r after method segments params, segments ≠ [] →
    (∀ s ∈ segments, '/' ∉ s) → (∀ r' ∈ before, r'.params method segments = none) →
    r.params method segments = some params →
    stack.dispatch (before ++ r :: after) method (pathOf segments) = some (r.route, params)

/-! ### Requests -/

/-- The calls of a transport. -/
inductive ClientCall
  | sendMessage
  | streamMessage
  | getTask (taskId : String)
  | listTasks
  | cancelTask (taskId : String)
  | subscribeTask (taskId : String)
  | setPushConfig (taskId : String)
  | getPushConfig (taskId : String) (configId : Option String)
  | listPushConfigs (taskId : String)
  | deletePushConfig (taskId : String) (configId : String)
  | getExtendedCard
  | healthCheck
  deriving DecidableEq, Repr

/-- `if config_id` -/
def given (configId : Option String) : Option String := configId.filter (· ≠ "")

namespace ClientCall

def method : ClientCall → HttpMethod
  | sendMessage | streamMessage | cancelTask _ | subscribeTask _ | setPushConfig _ => .post
  | deletePushConfig _ _ => .delete
  | _ => .get

/-- The path of the request, with what is quoted in it. -/
def path : ClientCall → List Piece
  | sendMessage => [.plain "/message:send".toList]
  | streamMessage => [.plain "/message:stream".toList]
  | getTask taskId => [.plain "/tasks/".toList, .quoted taskId.toList]
  | listTasks => [.plain "/tasks".toList]
  | cancelTask taskId => [.plain "/tasks/".toList, .quoted taskId.toList, .plain ":cancel".toList]
  | subscribeTask taskId =>
    [.plain "/tasks/".toList, .quoted taskId.toList, .plain ":subscribe".toList]
  | setPushConfig taskId | listPushConfigs taskId =>
    [.plain "/tasks/".toList, .quoted taskId.toList, .plain "/pushNotificationConfigs".toList]
  | getPushConfig taskId configId =>
    let configs := [.plain "/tasks/".toList, .quoted taskId.toList,
      .plain "/pushNotificationConfigs".toList]
    match given configId with
    | none => configs
    | some configId => configs ++ [.plain ['/'], .quoted configId.toList]
  | deletePushConfig taskId configId =>
    [.plain "/tasks/".toList, .quoted taskId.toList, .plain "/pushNotificationConfigs/".toList,
      .quoted configId.toList]
  | getExtendedCard => [.plain "/card".toList]
  | healthCheck => [.plain "/health".toList]

/-- The endpoint of the operation; without an id, a push configuration is looked for in the list. -/
def route : ClientCall → RestRoute
  | sendMessage => .messageSend
  | streamMessage => .messageStream
  | getTask _ => .tasksGet
  | listTasks => .tasksList
  | cancelTask _ => .tasksCancel
  | subscribeTask _ => .tasksSubscribe
  | setPushConfig _ => .pushConfigSet
  | getPushConfig _ configId =>
    if (given configId).isSome then .pushConfigGetById else .pushConfigList
  | listPushConfigs _ => .pushConfigList
  | deletePushConfig _ _ => .pushConfigDelete
  | getExtendedCard => .card
  | healthCheck => .healthCheck

def ids : ClientCall → List String
  | getTask taskId | cancelTask taskId | subscribeTask taskId | setPushConfig taskId
  | listPushConfigs taskId => [taskId]
  | getPushConfig taskId configId => taskId :: (given configId).toList
  | deletePushConfig taskId configId => [taskId, configId]
  | _ => []

/-- The request as the endpoints know it. -/
def request (call : ClientCall) : RestRequest :=
  { route := call.route
    taskId := call.ids.headD ""
    configId := call.ids.tail.headD "" }

end ClientCall

/-- `quote(…, safe='')` leaves these as they are. -/
def unreserved (c : Char) : Bool := c.isAlphanum || c = '_' || c = '.' || c = '-' || c = '~'

/-- The path behind the host in the url of a transport. -/
def basePath : ProtocolVersion → List Char
  | .v03 => "/v1".toList
  | .v10 => []

/-- The path of the request, as the transport writes it. -/
def writtenPath (v : ProtocolVersion) (call : ClientCall) : List Char :=
  basePath v ++ call.path.flatMap (Piece.write unreserved)

/-! ### Segments -/

variable {v : ProtocolVersion} {call : ClientCall} {segments : List (List Char)}

/-- The segments of the path of a call, with the ids written by `f`. -/
def segmentsOf (f : List Char → List Char) (v : ProtocolVersion) (call : ClientCall) :
    List (List Char) :=
  let task (taskId : String) := ["tasks".toList, f taskId.toList]
  let configs (taskId : String) := task taskId ++ ["pushNotificationConfigs".toList]
  (match v with
    | .v03 => ["v1".toList]
    | .v10 => []) ++
  match call with
  | .sendMessage => ["message:send".toList]
  | .streamMessage => ["message:stream".toList]
  | .getTask taskId => task taskId
  | .listTasks => ["tasks".toList]
  | .cancelTask taskId => ["tasks".toList, f taskId.toList ++ ":cancel".toList]
  | .subscribeTask taskId => ["tasks".toList, f taskId.toList ++ ":subscribe".toList]
  | .setPushConfig taskId | .listPushConfigs taskId => configs taskId
  | .getPushConfig taskId configId =>
    configs taskId ++ ((given configId).map fun id => f id.toList).toList
  | .deletePushConfig taskId configId => configs taskId ++ [f configId.toList]
  | .getExtendedCard => ["card".toList]
  | .healthCheck => ["health".toList]

/-- How the pieces of the path of a call are put together. -/
theorem path_eq (f : List Char → List Char) (g : Piece → List Char)
    (hplain : ∀ text, g (.plain text) = text) (hquoted : ∀ text, g (.quoted text) = f text)
    (v : ProtocolVersion) (call : ClientCall) :
    basePath v ++ call.path.flatMap g = pathOf (segmentsOf f v call) := by
  cases v <;> cases call with
    | getPushConfig taskId configId =>
      cases hconfig : given configId <;>
        simp [ClientCall.path, segmentsOf, hconfig, hplain, hquoted, basePath, pathOf,
          List.intercalate]
    | _ => simp [ClientCall.path, segmentsOf, hplain, hquoted, basePath, pathOf, List.intercalate]

instance (s : List Char) : Decidable (Whole s) := inferInstanceAs (Decidable (_ ∧ _))

theorem Whole.before {s : List Char} (h : '/' ∉ s) {suffix : List Char} (hsuffix : '/' ∉ suffix)
    (hlength : 3 ≤ suffix.length) : Whole (s ++ suffix) := by
  refine ⟨fun hmem => (List.mem_append.mp hmem).elim h hsuffix, fun heq => ?_, fun heq => ?_⟩
  · have hl := congrArg List.length heq
    rw [List.length_append, List.length_singleton] at hl
    omega
  · have hl := congrArg List.length heq
    rw [List.length_append, List.length_cons, List.length_singleton] at hl
    omega

theorem segmentsOf_ne_nil (f : List Char → List Char) (v : ProtocolVersion) (call : ClientCall) :
    segmentsOf f v call ≠ [] := by
  cases v <;> cases call <;> simp [segmentsOf]

theorem whole_segmentsOf {f : List Char → List Char} (hf : ∀ id ∈ call.ids, Whole (f id.toList)) :
    ∀ s ∈ segmentsOf f v call, Whole s := by
  have hbase : ∀ s ∈ (match v with
      | .v03 => ["v1".toList]
      | .v10 => []), Whole s := by
    cases v <;> decide
  have htasks : Whole "tasks".toList := by decide
  have hconfigs : Whole "pushNotificationConfigs".toList := by decide
  intro s hs
  rcases List.mem_append.mp hs with hs | hs
  · exact hbase s hs
  cases call with
  | sendMessage | streamMessage | listTasks | getExtendedCard | healthCheck =>
    rw [List.mem_singleton.mp hs]
    decide
  | getTask taskId =>
    have htask := hf taskId List.mem_cons_self
    simp only [List.mem_cons, List.not_mem_nil, or_false] at hs
    rcases hs with rfl | rfl
    · exact htasks
    · exact htask
  | cancelTask taskId =>
    have htask := hf taskId List.mem_cons_self
    simp only [List.mem_cons, List.not_mem_nil, or_false] at hs
    rcases hs with rfl | rfl
    · exact htasks
    · exact .before htask.1 (by decide) (by decide)
  | subscribeTask taskId =>
    have htask := hf taskId List.mem_cons_self
    simp only [List.mem_cons, List.not_mem_nil, or_false] at hs
    rcases hs with rfl | rfl
    · exact htasks
    · exact .before htask.1 (by decide) (by decide)
  | setPushConfig taskId | listPushConfigs taskId =>
    have htask := hf taskId List.mem_cons_self
    simp only [List.cons_append, List.nil_append, List.mem_cons, List.not_mem_nil, or_false] at hs
    rcases hs with rfl | rfl | rfl
    · exact htasks
    · exact htask
    · exact hconfigs
  | getPushConfig taskId configId =>
    have htask := hf taskId List.mem_cons_self
    simp only [List.cons_append, List.nil_append, List.mem_cons, Option.mem_toList,
      Option.map_eq_some_iff] at hs
    rcases hs with rfl | rfl | rfl | ⟨id, hid, rfl⟩
    · exact htasks
    · exact htask
    · exact hconfigs
    · refine hf id (List.mem_cons_of_mem _ ?_)
      rw [hid]
      exact List.mem_singleton_self id
  | deletePushConfig taskId configId =>
    have htask := hf taskId List.mem_cons_self
    simp only [List.cons_append, List.nil_append, List.mem_cons, List.not_mem_nil, or_false] at hs
    rcases hs with rfl | rfl | rfl | rfl
    · exact htasks
    · exact htask
    · exact hconfigs
    · exact hf configId (List.mem_cons_of_mem _ List.mem_cons_self)

/-- What is quoted is a segment of its own if it is one as it is. -/
theorem whole_quote {text : List Char} (h : Whole text) : Whole (quote unreserved text) := by
  have hdots : ∀ s : List Char, '%' ∉ s → text ≠ s → quote unreserved text ≠ s := by
    intro s hs hne heq
    exact hne ((eq_of_quote (heq ▸ hs)).symm.trans heq)
  refine ⟨fun hmem => ?_, hdots _ (by decide) h.2.1, hdots _ (by decide) h.2.2⟩
  rcases mem_quote hmem with ⟨hsafe, -⟩ | heq | ⟨n, hn, heq⟩
  · cases hsafe
  · cases heq
  · have hnone : ∀ n < 16, '/' ≠ hexDigit n := by decide
    exact hnone n hn heq

/-! ### Matching -/

variable {s : List Char} {rest : List Segment}

theorem matchPath_fixed (text : String) (rest : List Segment) (s : List Char)
    (segments : List (List Char)) :
    matchPath (.fixed text :: rest) (s :: segments) =
      if s = text.toList then matchPath rest segments else none := by
  rw [matchPath, matchSegment]
  split
  · cases hrest : matchPath rest segments <;> simp
  · rfl

/-- A parameter takes what is before the fixed end. -/
theorem matchPath_param {suffix : String} (hs : s ≠ []) :
    matchPath (.param suffix :: rest) ((s ++ suffix.toList) :: segments) =
      (matchPath rest segments).map (s :: ·) := by
  have hlength : suffix.toList.length < (s ++ suffix.toList).length := by
    have hpos := List.length_pos_of_ne_nil hs
    rw [List.length_append]
    omega
  have htake : (s ++ suffix.toList).take ((s ++ suffix.toList).length - suffix.toList.length) = s := by
    rw [List.length_append, Nat.add_sub_cancel, List.take_left]
  have hends : suffix.toList.isSuffixOf (s ++ suffix.toList) = true :=
    List.isSuffixOf_iff_suffix.mpr (List.suffix_append _ _)
  rw [matchPath, matchSegment, if_pos ⟨hends, hlength⟩, htake]
  rfl

theorem matchPath_whole (hs : s ≠ []) :
    matchPath (.param "" :: rest) (s :: segments) = (matchPath rest segments).map (s :: ·) := by
  have h : matchPath (.param "" :: rest) ((s ++ "".toList) :: segments) = _ := matchPath_param hs
  rwa [show s ++ "".toList = s from List.append_nil s] at h

/-- A path with the wrong end. -/
theorem matchPath_end (s : List Char) :
    matchPath (.param ":cancel" :: rest) ((s ++ ":subscribe".toList) :: segments) = none := by
  have hends : ¬ ":cancel".toList.isSuffixOf (s ++ ":subscribe".toList) = true := by
    rw [List.isSuffixOf_iff_suffix]
    rintro ⟨t, ht⟩
    have hlast := congrArg List.getLast? ht
    rw [List.getLast?_append_of_ne_nil _ (by decide), List.getLast?_append_of_ne_nil _ (by decide)] at hlast
    revert hlast
    decide
  rw [matchPath, matchSegment, if_neg fun h => hends h.1]
  rfl

/-- The ids are not empty, and they are segments of their own. -/
def Routable (call : ClientCall) : Prop := ∀ id ∈ call.ids, id ≠ "" ∧ Whole id.toList

instance (call : ClientCall) : Decidable (Routable call) := List.decidableBAll _ _

section

attribute [local simp] routes routerPrefix segmentsOf ClientCall.method ClientCall.route
  ClientCall.ids matchPath_fixed Route.params

@[local simp] theorem matchPath_nil : matchPath [] [] = some [] := rfl

@[local simp] theorem matchPath_short (g : Segment) (rest : List Segment) :
    matchPath (g :: rest) [] = none := rfl

@[local simp] theorem matchPath_long (s : List Char) (segments : List (List Char)) :
    matchPath [] (s :: segments) = none := rfl

@[local simp] theorem matchPath_more (g : Segment) (s t : List Char) (segments : List (List Char)) :
    matchPath [g] (s :: t :: segments) = none := by
  rw [matchPath, matchPath_long]
  exact Option.bind_fun_none _

/-- The first route that matches a call is that of its operation. -/
theorem findSome_route (hcall : Routable call) :
    ((routes v).findSome? fun r => (r.params call.method (segmentsOf id v call)).map (r.route, ·)) =
      some (call.route, call.ids.map String.toList) := by
  have hne : ∀ id ∈ call.ids, id.toList ≠ [] := by
    intro id hid hnil
    exact (hcall id hid).1 (String.toList_eq_nil_iff.mp hnil)
  cases call with
  | sendMessage | streamMessage | listTasks | getExtendedCard | healthCheck =>
    cases v <;> decide
  | cancelTask taskId =>
    have htask := hne taskId List.mem_cons_self
    have hcancel : matchPath [.param ":cancel"] [taskId.toList ++ ":cancel".toList] =
        some [taskId.toList] := matchPath_param htask
    simp only [String.reduceToList] at hcancel
    cases v <;> simp [hcancel]
  | subscribeTask taskId =>
    have htask := hne taskId List.mem_cons_self
    have hcancel : matchPath [.param ":cancel"] [taskId.toList ++ ":subscribe".toList] = none :=
      matchPath_end _
    have hsubscribe : matchPath [.param ":subscribe"] [taskId.toList ++ ":subscribe".toList] =
        some [taskId.toList] := matchPath_param htask
    simp only [String.reduceToList] at hcancel hsubscribe
    cases v <;> simp [hcancel, hsubscribe]
  | getTask taskId | setPushConfig taskId | listPushConfigs taskId =>
    have htask := hne taskId List.mem_cons_self
    cases v <;> simp [matchPath_whole htask]
  | getPushConfig taskId configId =>
    have htask := hne taskId List.mem_cons_self
    cases hconfig : given configId with
    | none => cases v <;> simp [matchPath_whole htask, hconfig]
    | some id =>
      have hid := hne id (by simp [hconfig])
      cases v <;> simp [matchPath_whole htask, matchPath_whole hid, hconfig]
  | deletePushConfig taskId configId =>
    have htask := hne taskId List.mem_cons_self
    have hid := hne configId (List.mem_cons_of_mem _ List.mem_cons_self)
    cases v <;> simp [matchPath_whole htask, matchPath_whole hid]

end

/-- The path that the endpoints see. -/
theorem routePath_request (v : ProtocolVersion) (call : ClientCall) :
    (routePath v call.request).toList = pathOf (segmentsOf id v call) := by
  cases v <;> cases call with
    | getPushConfig taskId configId =>
      cases hconfig : given configId <;>
        simp [routePath, ClientCall.request, ClientCall.route, ClientCall.ids, segmentsOf, hconfig,
          pathOf, List.intercalate]
    | _ =>
      simp [routePath, ClientCall.request, ClientCall.route, ClientCall.ids, segmentsOf, pathOf,
        List.intercalate]

/-- No `%` is in what is not quoted. -/
theorem plain_path (v : ProtocolVersion) (call : ClientCall) :
    ∀ text, .plain text ∈ .plain (basePath v) :: call.path → '%' ∉ text := by
  intro text htext
  rcases List.mem_cons.mp htext with heq | htext
  · cases heq
    cases v <;> decide
  cases call with
  | getPushConfig taskId configId =>
    cases hconfig : given configId <;> simp [ClientCall.path, hconfig] at htext
    · rcases htext with rfl | rfl <;> decide
    · rcases htext with rfl | rfl | rfl <;> decide
  | _ =>
    simp only [ClientCall.path, List.mem_cons, List.not_mem_nil, or_false, Piece.plain.injEq,
      reduceCtorEq, false_or, or_false] at htext
    rcases htext with rfl | rfl <;> decide

/-- Nothing is dropped from a path, and the first route that matches is taken. -/
def plainStack : HttpStack where
  normalize := id
  dispatch routes method path :=
    match path with
    | '/' :: rest => routes.findSome? fun r =>
      (r.params method (rest.splitOn '/')).map (r.route, ·)
    | _ => none

theorem plainStack_documented : plainStack.Documented where
  normalize _ _ _ := rfl
  dispatch before r after method segments params hne hslash hbefore hr := by
    have hsplit : (['/'].intercalate segments).splitOn '/' = segments :=
      List.splitOn_intercalate '/' hslash hne
    have hnone : (before.findSome? fun r => (r.params method segments).map (r.route, ·)) = none :=
      List.findSome?_eq_none_iff.mpr fun r' hr' => by rw [hbefore r' hr', Option.map_none]
    simp only [plainStack, pathOf, hsplit, List.findSome?_append, hnone, Option.none_or,
      List.findSome?_cons, hr, Option.map_some]

end RestRouting

open RestRouting PercentEncoding Endpoints

/-- **Every call reaches the endpoint of its operation**: whatever characters the ids have, as long as
they are not empty and segments of their own, the server takes the route of the operation and gets
the ids as they were. -/
theorem requests_routed (stack : HttpStack) (hstack : stack.Documented) (v : ProtocolVersion)
    (call : ClientCall) (hcall : Routable call) :
    unquote (stack.normalize (writtenPath v call)) = some (routePath v call.request).toList ∧
      stack.dispatch (routes v) call.method (routePath v call.request).toList =
        some (call.route, call.ids.map String.toList) := by
  have hwhole : ∀ s ∈ segmentsOf id v call, Whole s :=
    whole_segmentsOf fun id hid => (hcall id hid).2
  have hquoted : ∀ s ∈ segmentsOf (quote unreserved) v call, Whole s :=
    whole_segmentsOf fun id hid => whole_quote (hcall id hid).2
  have hwritten : writtenPath v call = pathOf (segmentsOf (quote unreserved) v call) :=
    path_eq (quote unreserved) _ (fun _ => rfl) (fun _ => rfl) v call
  have hsent : stack.normalize (writtenPath v call) =
      basePath v ++ call.path.flatMap (Piece.write unreserved) := by
    rw [hwritten, hstack.normalize _ (segmentsOf_ne_nil _ _ _) hquoted, ← hwritten, writtenPath]
  have hplain : basePath v ++ call.path.flatMap Piece.chars = pathOf (segmentsOf id v call) :=
    path_eq id _ (fun _ => rfl) (fun _ => rfl) v call
  rw [routePath_request]
  constructor
  · rw [hsent, ← hplain]
    exact unquote_pieces (by decide) (.plain (basePath v) :: call.path) (plain_path v call)
  · -- the routes before the one of the operation do not match
    obtain ⟨before, r, after, hroutes, hr, hbefore⟩ :=
      List.findSome?_eq_some_iff.mp (findSome_route (v := v) hcall)
    obtain ⟨params, hparams, hpair⟩ := Option.map_eq_some_iff.mp hr
    rw [hroutes, hstack.dispatch before r after call.method _ params (segmentsOf_ne_nil _ _ _)
      (fun s hs => (hwhole s hs).1)
      (fun r' hr' => Option.map_eq_none_iff.mp (hbefore r' hr')) hparams, hpair]

/-- An id that looks like the path of another call. -/
theorem odd_id_routed :
    writtenPath .v03 (.getTask "50% ü:cancel") = "/v1/tasks/50%25%20%C3%BC%3Acancel".toList ∧
      unquote "/v1/tasks/50%25%20%C3%BC%3Acancel".toList = some "/v1/tasks/50% ü:cancel".toList ∧
      plainStack.dispatch (routes .v03) .get "/v1/tasks/50% ü:cancel".toList =
        some (.tasksGet, ["50% ü:cancel".toList]) := by
  have hwritten : writtenPath .v03 (.getTask "50% ü:cancel") =
      "/v1/tasks/50%25%20%C3%BC%3Acancel".toList := by
    decide +kernel
  obtain ⟨hpath, hdispatch⟩ := requests_routed plainStack plainStack_documented .v03
    (.getTask "50% ü:cancel") (by decide)
  rw [hwritten] at hpath
  exact ⟨hwritten, hpath, hdispatch⟩

end A2AKit
