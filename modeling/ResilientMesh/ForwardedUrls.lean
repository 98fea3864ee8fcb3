/-
ResilientMesh/ForwardedUrls.lean

The URLs that the control-center (docker/services) writes for the routes that
hand a query on, and the requests they make.  A URL is cut at its question
mark: before it stands the path, after it the query.

Five routes write the mark before the encoded query, the sixth does not, and
its query becomes a part of the path.

Main result: a route asks for its own path, with the first value of every key,
exactly if it is one of the five or there is no query (`forwarded_url_iff`).
-/
import ResilientMesh.Forwarding

namespace ResilientMesh

/-! ### Writing -/

def BILLING_URL : String := "http://billing.default.svc.cluster.local:8080/"

/-- The routes that pass on a query. -/
inductive ForwardRoute
  | account (route : AccountRoute)
  | getAnalytics

/-- The URL that a route asks for. -/
def ForwardRoute.uri (route : ForwardRoute) (req : Request) : String :=
  match route with
  | account .createAccount => BILLING_URL ++ "createAccount" ++ "?" ++ ControlCenter.queryParams req
  | account .depositAccount => BILLING_URL ++ "depositAccount" ++ "?"
      ++ ControlCenter.queryParams req
  | account .chargeAccount => BILLING_URL ++ "chargeAccount" ++ "?" ++ ControlCenter.queryParams req
  | account .getAccountInfo => BILLING_URL ++ "getAccountInfo" ++ "?"
      ++ ControlCenter.queryParams req
  | account .deleteAccount => BILLING_URL ++ "deleteAccount" ++ "?" ++ ControlCenter.queryParams req
  -- no question mark here
  | getAnalytics => "http://analytics:8080/getAnalytics" ++ ControlCenter.queryParams req

/-- The path of the route behind it. -/
def ForwardRoute.path : ForwardRoute → String
  | account .createAccount => "/createAccount"
  | account .depositAccount => "/depositAccount"
  | account .chargeAccount => "/chargeAccount"
  | account .getAccountInfo => "/getAccountInfo"
  | account .deleteAccount => "/deleteAccount"
  | getAnalytics => "/getAnalytics"

/-! ### Reading -/

/-- A character that ends a path. -/
def endsPath (c : Char) : Bool := c = '?' || c = '#'

/-- What follows the host of a URL. -/
def target (url : List Char) : List Char :=
  (url.drop "http://".length).dropWhile fun c => c ≠ '/'

/-- The query after a path. -/
def queryOf : List Char → List Char
  | '?' :: query => query
  | _ => []

/-- What a server sees of a request. -/
structure UpstreamRequest where
  path : String
  args : List (String × String)

/-- The request for a URL. -/
def urlRequest (url : String) : UpstreamRequest :=
  let rest := target url.toList
  ⟨String.ofList (rest.takeWhile fun c => !endsPath c),
    parseQuery (sendQuery (queryOf (rest.dropWhile fun c => !endsPath c)))⟩

/-- No character of the text ends a path. -/
def noEnd (p : List Char) : Bool := p.all fun c => !endsPath c

theorem noEnd_iff {p : List Char} : noEnd p = true ↔ ∀ c ∈ p, endsPath c = false := by
  simp [noEnd]

theorem takeWhile_path {p : List Char} (hp : ∀ c ∈ p, endsPath c = false) (rest : List Char) :
    (p ++ rest).takeWhile (fun c => !endsPath c) = p ++ rest.takeWhile fun c => !endsPath c := by
  apply List.takeWhile_append_of_pos
  intro c hc
  rw [hp c hc]
  rfl

theorem dropWhile_path {p : List Char} (hp : ∀ c ∈ p, endsPath c = false) (rest : List Char) :
    (p ++ rest).dropWhile (fun c => !endsPath c) = rest.dropWhile fun c => !endsPath c := by
  apply List.dropWhile_append_of_pos
  intro c hc
  rw [hp c hc]
  rfl

/-- **A URL is cut at its question mark.** -/
theorem urlRequest_query {url : String} {p query : List Char}
    (htarget : target url.toList = p ++ '?' :: query) (hp : ∀ c ∈ p, endsPath c = false) :
    urlRequest url = ⟨String.ofList p, parseQuery (sendQuery query)⟩ := by
  rw [urlRequest, htarget, takeWhile_path hp, dropWhile_path hp]
  simp [endsPath, queryOf]

/-- Without one it is all path. -/
theorem urlRequest_path {url : String} {p : List Char} (htarget : target url.toList = p)
    (hp : ∀ c ∈ p, endsPath c = false) : urlRequest url = ⟨String.ofList p, []⟩ := by
  have htake := takeWhile_path hp []
  have hdrop := dropWhile_path hp []
  rw [List.append_nil] at htake hdrop
  rw [urlRequest, htarget, htake, hdrop]
  simp [queryOf, sendQuery, parseQuery]

/-! ### What is asked for -/

/-- No character of an encoded query ends a path. -/
theorem endsPath_encodeFields {items : List (String × String)} {c : Char}
    (h : c ∈ encodeFields items) : endsPath c = false := by
  have hnot : ∀ x : Char, endsPath x = true → x = '?' ∨ x = '#' := by
    intro x hx
    simpa [endsPath] using hx
  by_contra hends
  rcases hnot c (by simpa using hends) with rfl | rfl
  · exact absurd (mem_encodeFields h) (by decide)
  · exact absurd (mem_encodeFields h) (by decide)

/-- The host of a URL ends at the first slash after it. -/
theorem target_written {host p : List Char} (h : '/' ∉ host) (rest : List Char) :
    target ("http://".toList ++ host ++ (['/'] ++ p ++ rest)) = ['/'] ++ p ++ rest := by
  have hhost : ∀ c ∈ host, decide (c ≠ '/') = true := by
    intro c hc
    have hne : c ≠ '/' := fun heq => h (heq ▸ hc)
    simpa using hne
  have hdrop : ("http://".toList ++ (host ++ (['/'] ++ p ++ rest))).drop "http://".length
      = host ++ (['/'] ++ p ++ rest) := List.drop_left' rfl
  rw [target, List.append_assoc, hdrop, List.dropWhile_append_of_pos hhost]
  simp

/-- What billing is asked: the path and the query, as they were written. -/
theorem urlRequest_billing {name path : String} (hpath : path.toList = ['/'] ++ name.toList)
    (hends : noEnd path.toList = true) (req : Request) :
    urlRequest (BILLING_URL ++ name ++ "?" ++ ControlCenter.queryParams req) =
      ⟨path, firstItems req.args⟩ := by
  have hbase : BILLING_URL.toList
      = "http://".toList ++ "billing.default.svc.cluster.local:8080".toList ++ ['/'] := by
    decide +kernel
  have hhost : '/' ∉ "billing.default.svc.cluster.local:8080".toList := by decide +kernel
  have hmark : "?".toList = ['?'] := by decide +kernel
  have htarget : target (BILLING_URL ++ name ++ "?" ++ ControlCenter.queryParams req).toList
      = path.toList ++ '?' :: (ControlCenter.queryParams req).toList := by
    rw [String.toList_append, String.toList_append, String.toList_append, hbase, hmark, hpath,
      ← target_written hhost]
    simp only [List.append_assoc, List.singleton_append]
  rw [urlRequest_query htarget (noEnd_iff.mp hends), String.ofList_toList,
    ControlCenter.queryParams, parseQuery_urlencode]

/-- **An account route asks billing for its own path**, with the query as it
is. -/
theorem urlRequest_account (route : AccountRoute) (req : Request) :
    urlRequest (ForwardRoute.uri (.account route) req) =
      ⟨ForwardRoute.path (.account route), firstItems req.args⟩ := by
  cases route with
  | createAccount => exact urlRequest_billing (by decide +kernel) (by decide +kernel) req
  | depositAccount => exact urlRequest_billing (by decide +kernel) (by decide +kernel) req
  | chargeAccount => exact urlRequest_billing (by decide +kernel) (by decide +kernel) req
  | getAccountInfo => exact urlRequest_billing (by decide +kernel) (by decide +kernel) req
  | deleteAccount => exact urlRequest_billing (by decide +kernel) (by decide +kernel) req

/-- It is the query that `serveAlone` hands to billing. -/
theorem urlRequest_args (route : AccountRoute) (req : Request) :
    (urlRequest (ForwardRoute.uri (.account route) req)).args
      = (billingRequest route.method (ControlCenter.queryParams req)).args := by
  rw [urlRequest_account, billingRequest, ControlCenter.queryParams, parseQuery_urlencode]

/-- **The route of the analytics asks for a path with the query in it.** -/
theorem urlRequest_getAnalytics (req : Request) :
    urlRequest (ForwardRoute.uri .getAnalytics req) =
      ⟨String.ofList ("/getAnalytics".toList ++ encodeFields (firstItems req.args)), []⟩ := by
  have hbase : "http://analytics:8080/getAnalytics".toList
      = "http://".toList ++ "analytics:8080".toList ++ (['/'] ++ "getAnalytics".toList) := by
    decide +kernel
  have hhost : '/' ∉ "analytics:8080".toList := by decide +kernel
  have hpath : "/getAnalytics".toList = ['/'] ++ "getAnalytics".toList := by decide +kernel
  have hends : noEnd "/getAnalytics".toList = true := by decide +kernel
  have htarget : target (ForwardRoute.uri .getAnalytics req).toList
      = "/getAnalytics".toList ++ encodeFields (firstItems req.args) := by
    have huri : ForwardRoute.uri .getAnalytics req
        = "http://analytics:8080/getAnalytics" ++ ControlCenter.queryParams req := rfl
    have hquery : (ControlCenter.queryParams req).toList = encodeFields (firstItems req.args) :=
      String.toList_ofList
    rw [huri, String.toList_append, hquery, hbase, hpath, List.append_assoc]
    exact target_written hhost _
  apply urlRequest_path htarget
  intro c hc
  rcases List.mem_append.mp hc with hc | hc
  · exact noEnd_iff.mp hends c hc
  · exact endsPath_encodeFields hc

/-- The request has the route's own path, and the first value of every key is
the one that the client sent first. -/
def ForwardsQuery (route : ForwardRoute) (req : Request) : Prop :=
  (urlRequest (route.uri req)).path = route.path ∧
    ∀ key, argsGet (urlRequest (route.uri req)).args key = req.get key

/-- **A query is forwarded exactly by the account routes**, unless there is
none. -/
theorem forwarded_url_iff (route : ForwardRoute) (req : Request) :
    ForwardsQuery route req ↔ (∃ account, route = .account account) ∨ req.args = [] := by
  rw [ForwardsQuery]
  cases route with
  | account route =>
    rw [urlRequest_account]
    exact iff_of_true ⟨rfl, lookup_firstItems req.args⟩ (.inl ⟨route, rfl⟩)
  | getAnalytics =>
    rw [urlRequest_getAnalytics]
    constructor
    · rintro ⟨hpath, -⟩
      right
      have hlist := congrArg String.toList hpath
      rw [String.toList_ofList] at hlist
      have hnone : encodeFields (firstItems req.args) = [] := List.append_right_eq_self.mp hlist
      exact firstItems_eq_nil_iff.mp (encodeFields_eq_nil_iff.mp hnone)
    · rintro (⟨account, h⟩ | hnone)
      · cases h
      · have hempty : encodeFields (firstItems req.args) = [] :=
          encodeFields_eq_nil_iff.mpr (firstItems_eq_nil_iff.mpr hnone)
        constructor
        · show String.ofList ("/getAnalytics".toList ++ _) = "/getAnalytics"
          rw [hempty, List.append_nil, String.ofList_toList]
        · intro key
          rw [Request.get, hnone]

/-- The function of an estimate becomes a part of the path. -/
theorem getAnalytics_unforwarded :
    ¬ ∀ (route : ForwardRoute) (req : Request), ForwardsQuery route req := by
  intro h
  have hpath := (h .getAnalytics ⟨.get, [("function", "add")]⟩).1
  rw [urlRequest_getAnalytics] at hpath
  revert hpath
  decide +kernel

end ResilientMesh
