import Mathlib.Data.List.Infix
import PowerBlockade.Web.Csrf

/-!
# The routes behind the middleware

Every route that changes something, with how it knows its user.
-/

namespace PowerBlockade.Web
open Lib

inductive Auth
  | session
  | apiKey
  | anyone
deriving DecidableEq

/-- What follows the fixed part of a path: nothing, one parameter, or a whole path. -/
inductive Tail
  | exact
  | parameter
  | path
deriving DecidableEq

def Tail.accepts : Tail → List Char → Bool
  | .exact, rest => rest = []
  | .parameter, rest => rest ≠ [] ∧ '/' ∉ rest
  | .path, _ => true

structure Route where
  methods : List String
  base : String
  tail : Tail
  auth : Auth
deriving DecidableEq

def Route.accepts (route : Route) (request : Request) : Bool :=
  request.method ∈ route.methods ∧ route.base.toList <+: request.path.toList ∧
    route.tail.accepts (request.path.toList.drop route.base.length)

def post (auth : Auth) (base : String) : Route := ⟨["POST"], base, .exact, auth⟩

/-- In the order of `main.py`. -/
def routes : List Route :=
  (["register", "heartbeat", "ingest", "metrics", "commands/result"].map fun name =>
      post .apiKey ("/api/node-sync/" ++ name)) ++
    (["disable", "enable", "pause", "clear-cache"].map fun name => post .session ("/api/blocking/" ++ name)) ++
    [post .anyone "/login"] ++
    ["/blocklists/add", "/blocklists/update-frequency", "/blocklists/delete", "/blocklists/add-preset",
      "/blocklists/toggle", "/entries/add", "/blocklists/apply", "/blocklists/update-schedule",
      "/entries/delete", "/forwardzones/add", "/forwardzones/toggle", "/forwardzones/delete",
      "/forwardzones/apply", "/nodes/generate", "/nodes/delete", "/nodes/force-sync", "/nodes/clear-error",
      "/precache/warm", "/precache/settings", "/clients/resolver/add", "/clients/resolver/toggle",
      "/clients/resolver/delete", "/clients/set-name", "/clients/resolve", "/clients/groups/create",
      "/clients/groups/delete", "/clients/groups/update", "/clients/groups/auto-assign",
      "/clients/set-group", "/backup/database", "/backup/config"].map (post .session) ++
    [⟨["POST"], "/backup/delete/", .parameter, .session⟩, post .session "/backup/restore/database"] ++
    ["/jobs/rollup", "/jobs/retention", "/audit/rollback", "/settings/timezone", "/settings/retention",
      "/settings/health-thresholds"].map (post .session) ++
    [⟨["GET", "POST", "PUT", "DELETE", "PATCH", "OPTIONS", "HEAD"], "/grafana/", .path, .anyone⟩]

/-- The routes of the user interface under `/api/`. -/
def Route.underApi (route : Route) : Bool := "/api/".toList.isPrefixOf route.base.toList

/-! ## Routes and exempt paths -/

variable {request : Request} {route : Route}

/-- No exempt path goes on where the fixed part of a path ends. -/
theorem session_routes : ∀ route ∈ routes, route.auth = .session →
    (∀ exempt ∈ middleware.exemptPaths,
        exempt.toList <+: route.base.toList ∨ ¬ route.base.toList <+: exempt.toList) ∧
      middleware.isExempt route.base = route.underApi ∧ ∀ method ∈ route.methods, method ∉ safeMethods := by
  decide +kernel

theorem isExempt_eq (mounted : route ∈ routes) (session : route.auth = .session)
    (accepts : route.accepts request = true) : middleware.isExempt request.path = route.underApi := by
  obtain ⟨ends, base, -⟩ := session_routes route mounted session
  obtain ⟨-, starts, -⟩ := of_decide_eq_true accepts
  rw [← base, Bool.eq_iff_iff, CSRFMiddleware.isExempt, CSRFMiddleware.isExempt, List.any_eq_true, List.any_eq_true]
  refine exists_congr fun exempt => and_congr_right fun member => ?_
  rw [List.isPrefixOf_iff_prefix, List.isPrefixOf_iff_prefix]
  constructor
  · intro whole
    rcases List.prefix_or_prefix_of_prefix whole starts with inside | beyond
    · exact inside
    · exact (ends exempt member).resolve_right fun none => none beyond
  · exact fun inside => inside.trans starts

theorem not_safe (mounted : route ∈ routes) (session : route.auth = .session)
    (accepts : route.accepts request = true) : request.method ∉ safeMethods :=
  (session_routes route mounted session).2.2 _ (of_decide_eq_true accepts).1

/-! ## Protected requests -/

/-- How the application reads a form from its content type and its bytes. -/
abbrev FormDecoder := Option String → List UInt8 → List (String × String)

def formField (form : FormDecoder) (request : Request) : Option String :=
  (readBody request.messages).bind fun body => (form request.contentType body).lookup "csrf_token"

def Matches (form : FormDecoder) (request : Request) : Prop :=
  ∃ token, token ≠ "" ∧ request.cookie = some token ∧
    (request.header = some token ∨ formField form request = some token)

/-- Who comes through carries the token, and whose form carries it comes through. -/
structure Protected (form : FormDecoder) (fresh : Token) (request : Request) : Prop where
  sound : Reaches fresh request → Matches form request
  form : ∀ token, token ≠ "" → request.cookie = some token → nonempty request.header = none →
    formField form request = some token → Reaches fresh request

/-- Under `/api/` the request has to carry the token by itself. Elsewhere one without a cookie must not
guess the fresh token, and the middleware has to find the form's token where the application does. -/
def Guarded (form : FormDecoder) (fresh : Token) (route : Route) (request : Request) : Prop :=
  if route.underApi = true then Matches form request
  else
    (nonempty request.cookie = none → ¬ Submits request fresh.text) ∧
      ∀ token, token ≠ "" → request.cookie = some token → nonempty request.header = none →
        (formField form request = some token ↔ Submits request token ∧ isAsciiText token = true)

theorem isAsciiText_fresh (fresh : Token) : isAsciiText fresh.text = true := by
  have digits : "0123456789abcdef".toList.all QueryString.isAscii = true := by decide +kernel
  exact List.all_eq_true.mpr fun c member => List.all_eq_true.mp digits c (fresh.hex c member)

theorem protected_iff_of_no_cookie {form : FormDecoder} {fresh : Token}
    (guarded : middleware.isExempt request.path = false) (changing : request.method ∉ safeMethods)
    (cookie : nonempty request.cookie = none) :
    Protected form fresh request ↔ ¬ Submits request fresh.text := by
  have expected : csrfToken fresh request = fresh.text := by rw [csrfToken, cookie, Option.getD_none]
  have reaches : Reaches fresh request ↔ Submits request fresh.text := by
    rw [reaches_iff guarded changing, expected, and_iff_left (isAsciiText_fresh fresh)]
  have without (token : String) (given : token ≠ "") : request.cookie ≠ some token := by
    intro same
    rw [nonempty_eq_some.mpr ⟨same, given⟩] at cookie
    exact Option.some_ne_none _ cookie
  constructor
  · intro safe submits
    obtain ⟨token, given, same, -⟩ := safe.sound (reaches.mpr submits)
    exact without token given same
  · intro guess
    exact ⟨fun reached => absurd (reaches.mp reached) guess,
      fun token given same => absurd same (without token given)⟩

theorem protected_iff_of_cookie {form : FormDecoder} {fresh : Token} {token : String}
    (guarded : middleware.isExempt request.path = false) (changing : request.method ∉ safeMethods)
    (cookie : request.cookie = some token) (given : token ≠ "") :
    Protected form fresh request ↔ (nonempty request.header = none →
      (formField form request = some token ↔ Submits request token ∧ isAsciiText token = true)) := by
  have reaches : Reaches fresh request ↔ Submits request token ∧ isAsciiText token = true := by
    rw [reaches_iff guarded changing, csrfToken_of_cookie fresh cookie given]
  constructor
  · intro safe absent
    constructor
    · exact fun carried => reaches.mp (safe.form token given cookie absent carried)
    · intro submits
      obtain ⟨other, -, same, header | carried⟩ := safe.sound (reaches.mpr submits)
      · rw [cookie] at same
        rw [nonempty_eq_some.mpr ⟨header, Option.some.inj same ▸ given⟩] at absent
        contradiction
      · rw [cookie] at same
        rwa [Option.some.inj same]
  · intro agree
    constructor
    · intro reached
      obtain ⟨submits, ascii⟩ := reaches.mp reached
      rcases submits with header | ⟨absent, found⟩
      · exact ⟨token, given, cookie, .inl (nonempty_eq_some.mp header).1⟩
      · exact ⟨token, given, cookie, .inr ((agree absent).mpr ⟨.inr ⟨absent, found⟩, ascii⟩)⟩
    · intro other _ same absent carried
      rw [cookie] at same
      rw [← Option.some.inj same] at carried
      exact reaches.mpr ((agree absent).mp carried)

theorem protected_iff (form : FormDecoder) (fresh : Token) (request : Request) (route : Route)
    (mounted : route ∈ routes) (session : route.auth = .session) (accepts : route.accepts request = true) :
    Protected form fresh request ↔ Guarded form fresh route request := by
  have changing := not_safe mounted session accepts
  have exempt := isExempt_eq mounted session accepts
  unfold Guarded
  split
  · rename_i api
    have reaches : Reaches fresh request := reaches_of_exempt (.inl (exempt.trans api))
    exact ⟨fun safe => safe.sound reaches, fun carries => ⟨fun _ => carries, fun _ _ _ _ _ => reaches⟩⟩
  · rename_i ui
    have guarded := exempt.trans (Bool.eq_false_iff.mpr ui)
    cases cookie : nonempty request.cookie with
    | none =>
        rw [protected_iff_of_no_cookie guarded changing cookie]
        refine ⟨fun guess => ⟨fun _ => guess, fun token given same => ?_⟩, fun both => both.1 rfl⟩
        rw [nonempty_eq_some.mpr ⟨same, given⟩] at cookie
        contradiction
    | some token =>
        obtain ⟨same, given⟩ := nonempty_eq_some.mp cookie
        rw [protected_iff_of_cookie guarded changing same given]
        constructor
        · refine fun agree => ⟨fun none => absurd none (Option.some_ne_none _), fun other _ same' => ?_⟩
          rw [same] at same'
          rwa [← Option.some.inj same']
        · exact fun both => both.2 token given same

/-! ## Two requests -/

def zeros : Token where
  text := String.ofList (List.replicate 64 '0')
  length := by rw [String.length_ofList, List.length_replicate]
  hex := by
    intro c member
    rw [String.toList_ofList] at member
    rw [List.eq_of_mem_replicate member]
    decide +kernel

/-- A page of another site sends it along with the session cookie. -/
def forgedDisable : Request :=
  ⟨"POST", "/api/blocking/disable", none, none, some "text/plain", [⟨[], false⟩]⟩

theorem forged_disable_reaches :
    ¬ ∀ (form : FormDecoder) (fresh : Token) (request : Request) (route : Route), route ∈ routes →
      route.auth = .session → route.accepts request = true → Protected form fresh request := by
  intro safe
  have here := safe (fun _ _ => []) zeros forgedDisable (post .session "/api/blocking/disable")
    (by decide +kernel) rfl (by decide +kernel)
  have exempt : middleware.isExempt forgedDisable.path = true := by decide +kernel
  obtain ⟨token, -, cookie, -⟩ := here.sound (reaches_of_exempt (.inl exempt))
  contradiction

def deleteNode : Request :=
  ⟨"POST", "/nodes/delete", some "c0ffee", some "c0ffee", some formUrlencoded, [⟨[], false⟩]⟩

theorem protected_iff_deleteNode :
    Protected (fun _ _ => []) zeros deleteNode ↔
      Guarded (fun _ _ => []) zeros (post .session "/nodes/delete") deleteNode :=
  protected_iff (fun _ _ => []) zeros deleteNode (post .session "/nodes/delete") (by decide +kernel) rfl
    (by decide +kernel)

end PowerBlockade.Web
