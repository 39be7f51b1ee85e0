import EvCollect.EventQL.Attach
import EvCollect.EventQL.Upload
import EvCollect.Util.Base64

/-!
# The request of an upload

`uploadEvent` on the handle of the target, whose options stay set from one upload
to the next. The header lines that it builds authenticate the target, but they are
not installed on the handle, and no request carries them.
-/

namespace EvCollect
namespace EventQL

open StringUtil

/-! ## The library -/

/-- The options of a handle, as they have been set last. -/
structure CurlHandle where
  url : Bytes := []
  timeoutMs : UInt64 := 0
  postFields : Bytes := []
  /-- The list that was installed with `CURLOPT_HTTPHEADER`. -/
  httpHeader : List Bytes := []
  deriving DecidableEq, Repr

/-- What `curl_easy_perform` ends with: a text of `curl_easy_strerror`, or the
response code and what was written of the response. -/
inductive Transfer
  | failed (error : Bytes)
  | answered (code : Nat) (body : Bytes)
  deriving DecidableEq, Repr

/-- What the library does with a handle. -/
structure Libcurl where
  /-- The header lines that it sends besides those that are installed. -/
  ownHeaders : CurlHandle → List Bytes
  perform : CurlHandle → Transfer

/-- The header lines of the request that is performed. -/
def Libcurl.headers (curl : Libcurl) (handle : CurlHandle) : List Bytes :=
  handle.httpHeader ++ curl.ownHeaders handle

def jsonContentType : Bytes :=
  bytes "Content-Type: application/json; charset=utf-8"

/-- What the library sends by itself: it posts forms, and without a user name in
the URL or set on the handle it sends no authorization. -/
structure Libcurl.Plain (curl : Libcurl) : Prop where
  contentType : ∀ handle, jsonContentType ∉ curl.ownHeaders handle
  authorization : ∀ handle, 0x40 ∉ handle.url →
    ∀ line ∈ curl.ownHeaders handle, ¬ bytes "Authorization:" <+: line

/-! ## An upload -/

def uploadUrl (options : TargetOptions) : Option Bytes :=
  format (bytes "http://$0:$1/api/v1/tables/insert")
    [options.hostname, decimal options.port.toNat]

/-- The line for the token, if there is one. `curl_slist_append` copies C
strings. -/
def tokenHeader (options : TargetOptions) : List Bytes :=
  if options.authToken ≠ [] then
    [cString (bytes "Authorization: Token " ++ options.authToken)]
  else []

/-- The line for the user name and the password, if they are given. -/
def basicHeader (options : TargetOptions) : Option (List Bytes) :=
  if options.username ≠ [] ∨ options.password ≠ [] then
    (Base64.encode (options.username ++ bytes ":" ++ options.password)).map
      fun credentials => [cString (bytes "Authorization: Basic " ++ credentials)]
  else some []

/-- The list of header lines that `uploadEvent` builds. -/
def requestHeaders (options : TargetOptions) : Option (List Bytes) :=
  (basicHeader options).map
    fun basic => jsonContentType :: tokenHeader options ++ basic

/-- The end of `uploadEvent`. -/
def transferResult : Transfer → ReturnCode
  | .failed error =>
      ReturnCode.makeErrorf "EIO"
        (bytes "http request failed: " ++ cString error)
  | .answered code body =>
      if code = 201 then ReturnCode.success
      else if code = 400 then
        ReturnCode.makeErrorf "EINVAL" (bytes "http error: " ++ decimal code ++
          bytes " -- " ++ cString body)
      else if code = 403 ∨ code = 401 then
        ReturnCode.makeErrorf "EACCESS" (bytes "auth error: " ++ decimal code ++
          bytes " -- " ++ cString body)
      else
        ReturnCode.makeErrorf "EIO" (bytes "http error: " ++ decimal code ++
          bytes " -- " ++ cString body)

/-- `EventQLTarget::uploadEvent`: its result, and the handle with which the request
was performed. The lines of `requestHeaders` are freed without further use. -/
def uploadEvent
    (curl : Libcurl)
    (options : TargetOptions)
    (event : EnqueuedEvent) :
    Option CurlHandle → Option (ReturnCode × Option CurlHandle)
  | none => do
      let _ ← uploadUrl options
      let _ ← uploadBody event
      return (ReturnCode.makeErrorf "EIO" (bytes "curl_init() failed"), none)
  | some handle => do
      let url ← uploadUrl options
      let body ← uploadBody event
      let _ ← requestHeaders options
      let handle : CurlHandle := { handle with url := cString url }
      let handle : CurlHandle :=
        { handle with timeoutMs := options.httpTimeout / 1000 }
      let handle : CurlHandle := { handle with postFields := cString body }
      return (transferResult (curl.perform handle), some handle)

/-- The handles of a target behind some uploads. -/
inductive Reached (curl : Libcurl) (options : TargetOptions) :
    Option CurlHandle → Prop
  | init : Reached curl options (some {})
  | failed : Reached curl options none
  | upload {handle after : Option CurlHandle} {event : EnqueuedEvent}
      {rc : ReturnCode}
      (reached : Reached curl options handle)
      (uploaded : uploadEvent curl options event handle = some (rc, after)) :
      Reached curl options after

/-! ## Authentication -/

/-- That the header lines of a request authenticate a target. -/
structure Authenticates
    (options : TargetOptions)
    (headers : List Bytes) : Prop where
  token : ∀ token, bytes "Authorization: Token " ++ token ∈ headers ↔
    token = options.authToken ∧ token ≠ []
  basic : (∃ credentials, bytes "Authorization: Basic " ++ credentials ∈ headers) ↔
    options.username ≠ [] ∨ options.password ≠ []
  credentials : ∀ credentials,
    bytes "Authorization: Basic " ++ credentials ∈ headers →
      Base64.decode credentials [] =
        some (options.username ++ bytes ":" ++ options.password)
  contentType : jsonContentType ∈ headers

variable {curl : Libcurl}
variable {options : TargetOptions}
variable {event : EnqueuedEvent}
variable {handle : Option CurlHandle}

/-- An upload leaves the list on the handle as it is. -/
theorem httpHeader_uploadEvent
    {before after : CurlHandle}
    {rc : ReturnCode}
    (uploaded : uploadEvent curl options event (some before) =
      some (rc, some after)) :
    after.httpHeader = before.httpHeader := by
  rw [uploadEvent] at uploaded
  obtain ⟨url, -, uploaded⟩ := Option.bind_eq_some_iff.mp uploaded
  obtain ⟨body, -, uploaded⟩ := Option.bind_eq_some_iff.mp uploaded
  obtain ⟨headers, -, uploaded⟩ := Option.bind_eq_some_iff.mp uploaded
  cases uploaded
  rfl

theorem uploadEvent_none
    {rc : ReturnCode}
    {after : Option CurlHandle}
    (uploaded : uploadEvent curl options event none = some (rc, after)) :
    after = none := by
  rw [uploadEvent] at uploaded
  obtain ⟨url, -, uploaded⟩ := Option.bind_eq_some_iff.mp uploaded
  obtain ⟨body, -, uploaded⟩ := Option.bind_eq_some_iff.mp uploaded
  cases uploaded
  rfl

/-- No list is ever installed. -/
theorem Reached.httpHeader
    (reached : Reached curl options handle) :
    ∀ state ∈ handle, state.httpHeader = [] := by
  induction reached with
  | init => rintro state ⟨⟩; rfl
  | failed => exact nofun
  | @upload handle after event rc reached uploaded inductionHypothesis =>
      rintro state rfl
      cases handle with
      | none => cases uploadEvent_none uploaded
      | some before =>
          rw [httpHeader_uploadEvent uploaded]
          exact inductionHypothesis before rfl

/-! ## The lines that are built -/

theorem token_ne_basic (token credentials : Bytes) :
    bytes "Authorization: Token " ++ token ≠
      bytes "Authorization: Basic " ++ credentials := by
  intro same
  exact absurd (List.append_inj_left same rfl) (by decide)

theorem authorization_ne_contentType
    {scheme : String}
    (authorization : (bytes scheme).head? = some 0x41)
    (behind : Bytes) :
    bytes scheme ++ behind ≠ jsonContentType := by
  intro same
  have heads := congrArg List.head? same
  rw [List.head?_append, authorization, Option.some_or] at heads
  exact absurd heads (by decide)

theorem Base64.noZero_encode
    {s text : Bytes}
    (enough : 2 ≤ s.length)
    (fits : s.length < 2 ^ 64)
    (encoded : Base64.encode s = some text) :
    0 ∉ text := by
  rw [Base64.encode_eq enough fits] at encoded
  cases encoded
  rw [List.mem_append, not_or]
  refine ⟨fun inLetters => ?_, fun inPadding => ?_⟩
  · exact absurd (Base64.letters_mem s 0 inLetters) (by decide)
  · exact absurd (List.eq_of_mem_replicate inPadding) (by decide)

theorem two_le_length_credentials
    (given : options.username ≠ [] ∨ options.password ≠ []) :
    2 ≤ (options.username ++ bytes ":" ++ options.password).length := by
  have colon : (bytes ":").length = 1 := rfl
  rw [List.length_append, List.length_append, colon]
  rcases given with username | password
  · have := List.length_pos_of_ne_nil username
    omega
  · have := List.length_pos_of_ne_nil password
    omega

/-- The lines of the list. -/
theorem mem_requestHeaders
    (noZero : 0 ∉ options.authToken)
    (short : (options.username ++ bytes ":" ++ options.password).length < 2 ^ 64)
    {headers : List Bytes}
    (built : requestHeaders options = some headers)
    {line : Bytes} :
    line ∈ headers ↔ line = jsonContentType ∨
      (options.authToken ≠ [] ∧
        line = bytes "Authorization: Token " ++ options.authToken) ∨
      ((options.username ≠ [] ∨ options.password ≠ []) ∧ ∃ credentials,
        Base64.encode (options.username ++ bytes ":" ++ options.password) =
          some credentials ∧
        line = bytes "Authorization: Basic " ++ credentials) := by
  have token : cString (bytes "Authorization: Token " ++ options.authToken) =
      bytes "Authorization: Token " ++ options.authToken :=
    cString_eq_self (by rw [List.mem_append, not_or]; exact ⟨by decide, noZero⟩)
  obtain ⟨basic, isBasic, rfl⟩ := Option.map_eq_some_iff.mp built
  rw [List.cons_append, List.mem_cons, List.mem_append]
  refine or_congr_right (or_congr ?_ ?_)
  · rw [tokenHeader, token]
    split
    · next given => rw [List.mem_singleton, and_iff_right given]
    · next given => exact iff_of_false nofun fun isGiven => given isGiven.1
  · rw [basicHeader] at isBasic
    split at isBasic
    · next given =>
        obtain ⟨credentials, encoded, rfl⟩ := Option.map_eq_some_iff.mp isBasic
        have noZeroIn := Base64.noZero_encode
          (two_le_length_credentials given) short encoded
        have same : cString (bytes "Authorization: Basic " ++ credentials) =
            bytes "Authorization: Basic " ++ credentials :=
          cString_eq_self (by
            rw [List.mem_append, not_or]
            exact ⟨by decide, noZeroIn⟩)
        rw [same, List.mem_singleton, and_iff_right given, encoded]
        simp
    · next given =>
        cases isBasic
        exact iff_of_false nofun fun ⟨isGiven, _⟩ => given isGiven

/-- The list that is built authenticates the target. -/
theorem authenticates_requestHeaders
    (noZero : 0 ∉ options.authToken)
    (short : (options.username ++ bytes ":" ++ options.password).length < 3 * 2 ^ 29)
    {headers : List Bytes}
    (built : requestHeaders options = some headers) :
    Authenticates options headers := by
  have member (line : Bytes) :=
    @mem_requestHeaders options noZero (by omega) headers built line
  have json := @authorization_ne_contentType
  have basicLine (credentials : Bytes) :
      bytes "Authorization: Basic " ++ credentials ∈ headers ↔
        (options.username ≠ [] ∨ options.password ≠ []) ∧
          Base64.encode (options.username ++ bytes ":" ++ options.password) =
            some credentials := by
    rw [member, or_iff_right (json rfl credentials),
      or_iff_right fun ⟨_, same⟩ => token_ne_basic _ credentials same.symm]
    simp only [List.append_cancel_left_eq, exists_eq_right']
  refine ⟨?_, ?_, ?_, ?_⟩
  · intro token
    rw [member, or_iff_right (json rfl token), List.append_cancel_left_eq,
      or_iff_left fun ⟨_, credentials, _, same⟩ =>
        token_ne_basic token credentials same]
    constructor
    · rintro ⟨nonempty, rfl⟩
      exact ⟨rfl, nonempty⟩
    · rintro ⟨rfl, nonempty⟩
      exact ⟨nonempty, rfl⟩
  · simp only [basicLine]
    constructor
    · rintro ⟨credentials, given, -⟩
      exact given
    · intro given
      exact ⟨_, given, Base64.encode_eq (two_le_length_credentials given) (by omega)⟩
  · intro credentials isLine
    obtain ⟨given, encoded⟩ := (basicLine credentials).mp isLine
    have enough := two_le_length_credentials given
    have encodes := Base64.encodes_letters enough short
    cases encoded.symm.trans encodes.reads
    exact encodes.restores
  · exact (member _).mpr (.inl rfl)

/-! ## The request that is sent -/

/-- No request of a target authenticates it: none carries the content type, and
none carries any authorization that is not part of its URL. -/
theorem not_authenticates
    (plain : curl.Plain)
    {before after : CurlHandle}
    (reached : Reached curl options (some before))
    {rc : ReturnCode}
    (uploaded : uploadEvent curl options event (some before) =
      some (rc, some after)) :
    ¬ Authenticates options (curl.headers after) ∧
      (0x40 ∉ after.url →
        ∀ line ∈ curl.headers after, ¬ bytes "Authorization:" <+: line) := by
  have noList := (reached.upload uploaded).httpHeader after rfl
  rw [Libcurl.headers, noList, List.nil_append]
  refine ⟨fun authenticates => ?_, plain.authorization after⟩
  exact plain.contentType after authenticates.contentType

/-- The lines that the library sends with a form to port 9175 of this host. -/
def formCurl : Libcurl where
  ownHeaders := fun handle =>
    [bytes "Host: localhost:9175", bytes "Accept: */*",
      bytes "Content-Length: " ++ decimal handle.postFields.length,
      bytes "Content-Type: application/x-www-form-urlencoded"]
  perform := fun _ => .answered 401 []

theorem plain_formCurl : formCurl.Plain where
  contentType := by
    intro handle isLine
    have length (digits : Bytes) :
        jsonContentType ≠ bytes "Content-Length: " ++ digits := by
      intro same
      have start := congrArg (List.take 9) same
      rw [List.take_append_of_le_length (by decide)] at start
      exact absurd start (by decide)
    rw [formCurl] at isLine
    simp only [List.mem_cons, length, false_or] at isLine
    exact absurd isLine (by decide)
  authorization := by
    intro handle _ line isLine authorization
    have start : line.take 2 = bytes "Au" := by
      obtain ⟨behind, rfl⟩ := authorization
      rw [List.take_append_of_le_length (by decide)]
      rfl
    rw [formCurl] at isLine
    simp only [List.mem_cons, List.not_mem_nil, or_false] at isLine
    rcases isLine with rfl | rfl | rfl | rfl
    · exact absurd start (by decide)
    · exact absurd start (by decide)
    · rw [List.take_append_of_le_length (by decide)] at start
      exact absurd start (by decide)
    · exact absurd start (by decide)

def tokenOptions : TargetOptions where
  hostname := bytes "localhost"
  port := 9175
  authToken := bytes "secret"

def loginEvent : EnqueuedEvent where
  database := bytes "db"
  table := bytes "logins"
  data := bytes "\x7b\x7d"

def loginRequest : CurlHandle where
  url := bytes "http://localhost:9175/api/v1/tables/insert"
  timeoutMs := 30000
  postFields := bytes "[\x7b \"database\": \"db\",\"table\": \"logins\"" ++
    bytes "\"data\":\x7b\x7d\x7d]"

theorem uploadEvent_loginEvent :
    uploadEvent formCurl tokenOptions loginEvent (some {}) =
      some (ReturnCode.makeErrorf "EACCESS" (bytes "auth error: 401 -- "),
        some loginRequest) := by
  rfl

theorem not_authenticates_login :
    ¬ Authenticates tokenOptions (formCurl.headers loginRequest) ∧
      (0x40 ∉ loginRequest.url →
        ∀ line ∈ formCurl.headers loginRequest,
          ¬ bytes "Authorization:" <+: line) :=
  not_authenticates plain_formCurl .init uploadEvent_loginEvent

/-- A token is given, and the header line for it is built. The first upload is
performed without it. -/
theorem not_authenticates_token :
    requestHeaders tokenOptions =
        some [jsonContentType, bytes "Authorization: Token secret"] ∧
      uploadEvent formCurl tokenOptions loginEvent (some {}) =
        some (ReturnCode.makeErrorf "EACCESS" (bytes "auth error: 401 -- "),
          some loginRequest) ∧
      ¬ Authenticates tokenOptions (formCurl.headers loginRequest) := by
  refine ⟨by decide, uploadEvent_loginEvent, fun authenticates => ?_⟩
  have isLine := (authenticates.token (bytes "secret")).mpr ⟨rfl, by decide⟩
  exact absurd isLine (by decide)

end EventQL
end EvCollect
