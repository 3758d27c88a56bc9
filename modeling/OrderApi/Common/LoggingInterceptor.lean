import OrderApi.Common.Request
import OrderApi.Text.JsonBody

/-
  `src/common/interceptors/logging.interceptor.ts`.

  The interceptor writes one line for a request, and one for
  what comes of it.  The body is shown without its secrets,
  the URL as it is.

  Key definitions include:
    * `LoggedRequest`, `Handled`, `LogLine`
    * `LoggingInterceptor.buildRequestDetails`
    * `LoggingInterceptor.intercept`
    * `DifferInSecrets`, `HidesSecrets`

  Key theorems include:
    * `LoggingInterceptor.fields_safeBody`
    * `logs_same_iff`
-/

------------------------------------------------------------
-- Requests and Outcomes
------------------------------------------------------------

namespace OrderApi

/- The user on a request, as far as the log shows it. -/
structure LoggedUser where
  username : String
  role : Role
  tenantCode : Option String

/-
  A request, as far as the interceptor reads it.  Its URL is
  the path, and the query string with its question mark.
-/
structure LoggedRequest where
  method : String
  path : String
  search : String
  ip : String
  userAgent : Option String
  user : Option LoggedUser
  body : Option JsonBody
  params : JsObject

def LoggedRequest.url (request : LoggedRequest) : String :=
  request.path ++ request.search

/- An exception, with the properties that are logged. -/
structure Thrown where
  status : Option Nat
  statusCode : Option Nat
  message : Option String
  stack : Option String

/- A handler answers once, or throws. -/
inductive Handled where
  | next (statusCode : Nat)
  | error (error : Thrown)

/- The clock, when the request comes and when it is over. -/
structure LogTimes where
  timestamp : String
  responseTimestamp : String
  responseTime : Nat

/- A call on the logger. -/
inductive LogLine where
  | log (message : String)
  | error (message stack : String)
deriving DecidableEq, Repr

def Role.text : Role → String
  | .ADMIN => "ADMIN"
  | .CUSTOMER => "CUSTOMER"

/- `delete object[key]` -/
def JsObject.delete (object : JsObject) (key : String) :
    JsObject where
  fields := object.fields.filter fun field => field.1 ≠ key
  nodup :=
    object.nodup.sublist (List.filter_sublist.map Prod.fst)

end OrderApi

------------------------------------------------------------
-- Logging Interceptor
------------------------------------------------------------

namespace OrderApi

namespace LoggingInterceptor

/- `value || fallback`, of texts and of numbers. -/
def textOr (value : Option String) (fallback : String) :
    String :=
  (value.filter fun text => text ≠ "").getD fallback

def numberOr (value : Option Nat) (fallback : Nat) : Nat :=
  (value.filter fun n => n ≠ 0).getD fallback

/- The query without its password. -/
def safeQuery (query : JsObject) : JsObject :=
  if (truthy? (query.get? "password")).isSome then
    query.delete "password"
  else
    query

def redacted : JsonVal := .str "[REDACTED]"

/- `if (safeBody[key]) safeBody[key] = '[REDACTED]'` -/
def redact (key : String) (body : JsonObject) : JsonObject :=
  if (body.get? key).any JsonVal.truthy then
    body.overwrite key redacted
  else
    body

/- The body with its secrets redacted. -/
def safeBody (body : JsonBody) : JsonObject :=
  redact "token" (redact "password" body.spread)

def queryDetails (query : JsObject) : List String :=
  if query.nonempty ∧ (safeQuery query).nonempty then
    ["Query: " ++ (safeQuery query).stringify]
  else
    []

def bodyDetails : Option JsonBody → List String
  | none => []
  | some body =>
      if body.spread.nonempty ∧ (safeBody body).nonempty then
        ["Body: " ++ (safeBody body).stringify]
      else
        []

def paramsDetails (params : JsObject) : List String :=
  if params.nonempty then
    ["Params: " ++ params.stringify]
  else
    []

/- The parts of a request that have any fields. -/
def buildRequestDetails
    (body : Option JsonBody)
    (query params : JsObject) : String :=
  " | ".intercalate
    (queryDetails query ++ bodyDetails body ++
      paramsDetails params)

/- A text in front of another, unless that one is empty. -/
def labelled (label text ending : String) : String :=
  if text = "" then "" else label ++ text ++ ending

/- The name of the user, or of nobody. -/
def usernameOf (request : LoggedRequest) : String :=
  textOr (request.user.map LoggedUser.username) "anonymous"

/-
  The line of a request.  Header values are Latin-1, so that
  their characters are what `substring` counts.
-/
def requestLine
    (parseQuery : String → JsObject)
    (timestamp : String)
    (request : LoggedRequest) : String :=
  let userAgent := textOr request.userAgent ""
  let userRole :=
    (request.user.map fun user => user.role.text).getD ""
  let tenantCode :=
    textOr (request.user.bind LoggedUser.tenantCode) ""
  let requestDetails :=
    buildRequestDetails request.body
      (parseQuery request.search) request.params
  "[" ++ timestamp ++ "] " ++ request.method ++ " " ++
    request.url ++ (" | IP: " ++ request.ip ++
    labelled " | UA: "
      (String.ofList (userAgent.toList.take 50)) "" ++
    " | User: " ++ usernameOf request ++
    labelled " (" userRole ")" ++
    labelled " | Tenant: " tenantCode "" ++
    labelled " | " requestDetails "")

/- The line of what the handler did. -/
def responseLine
    (times : LogTimes)
    (request : LoggedRequest) : Handled → LogLine
  | .next statusCode =>
      .log
        ("[" ++ times.responseTimestamp ++ "] " ++
          request.method ++ " " ++ request.url ++
          (" " ++ toString statusCode ++ " | " ++
          toString times.responseTime ++ "ms | User: " ++
          usernameOf request))
  | .error error =>
      let statusCode :=
        numberOr error.status
          (numberOr error.statusCode 500)
      let errorMessage :=
        textOr error.message "Unknown error"
      .error
        ("[" ++ times.responseTimestamp ++ "] " ++
          request.method ++ " " ++ request.url ++
          (" " ++ toString statusCode ++ " | " ++
          toString times.responseTime ++ "ms | User: " ++
          usernameOf request ++ " | Error: " ++
          errorMessage))
        (textOr error.stack "")

/- The lines of a request and its outcome. -/
def intercept
    (parseQuery : String → JsObject)
    (times : LogTimes)
    (handled : Handled)
    (request : LoggedRequest) : List LogLine :=
  [.log (requestLine parseQuery times.timestamp request),
    responseLine times request handled]

end LoggingInterceptor

end OrderApi

------------------------------------------------------------
-- Secrets
------------------------------------------------------------

namespace OrderApi

mutual

/- A query value, as a body would hold it. -/
def JsVal.toJson : JsVal → JsonVal
  | .str text => .str text
  | .arr items => .arr (itemsToJson items)
  | .obj fields => .obj (fieldsToJson fields)

def itemsToJson : List JsVal → List JsonVal
  | [] => []
  | item :: items => item.toJson :: itemsToJson items

def fieldsToJson : List Field → List JsonField
  | [] => []
  | (key, value) :: fields =>
      (key, value.toJson) :: fieldsToJson fields

end

def isSecret (key : String) : Bool :=
  key = "password" ∨ key = "token"

/- Two values of a password or of a token. -/
def FilledSecret (key : String) (v w : JsonVal) : Prop :=
  isSecret key = true ∧ v.filled = true ∧ w.filled = true

/- The secrets of two bodies may differ, and nothing else. -/
def SameBodyButSecrets :
    Option JsonBody → Option JsonBody → Prop
  | none, none => True
  | some body, some body' =>
      body.value.AgreesBut FilledSecret body'.value
  | _, _ => False

/-
  The requests differ only in non-empty values of password
  and token fields, in the body or in the query string.
-/
structure DifferInSecrets
    (parseQuery : String → JsObject)
    (request request' : LoggedRequest) : Prop where
  rest :
    request' =
      { request with
        search := request'.search
        body := request'.body }
  query :
    fieldsAgreeBut FilledSecret
      (fieldsToJson (parseQuery request.search).fields)
      (fieldsToJson (parseQuery request'.search).fields)
  body : SameBodyButSecrets request.body request'.body

/-
  Two fields at the top of a body: secrets that are both
  truthy, or values without a difference below.
-/
def HiddenOrSame (field field' : JsonField) : Prop :=
  (isSecret field.1 = true ∧ field.2.truthy = true ∧
      field'.2.truthy = true) ∨
    WithSameText FilledSecret field.1 field.2 field'.2 ∨
    field.2.AgreesBut (WithSameText FilledSecret) field'.2

/- No secret differs where the body is shown as it is. -/
def HidesSecrets : Option JsonBody → Option JsonBody → Prop
  | some body, some body' =>
      List.Forall₂ HiddenOrSame body.spread.fields
        body'.spread.fields
  | _, _ => True

end OrderApi

------------------------------------------------------------
-- What is Redacted
------------------------------------------------------------

namespace OrderApi

namespace LoggingInterceptor

/- Redacting changes a truthy field of the key. -/
theorem fields_redact (key : String) (body : JsonObject) :
    (redact key body).fields =
      body.fields.map fun field =>
        (field.1,
          if field.1 = key ∧ field.2.truthy = true then redacted
          else field.2) := by
  unfold redact
  split
  · rename_i hTruthy
    apply List.map_congr_left
    intro field hMem
    by_cases hKey : field.1 = key
    · rw [← hKey, JsonObject.get?_of_mem hMem,
        Option.any_some] at hTruthy
      rw [if_pos hKey, if_pos ⟨hKey, hTruthy⟩]
    · rw [if_neg hKey, if_neg fun hBoth => hKey hBoth.1]
  · rename_i hFalsy
    have hSame :
        ∀ field ∈ body.fields,
          (field.1,
              if field.1 = key ∧ field.2.truthy = true then
                redacted
              else field.2) =
            field := by
      intro field hMem
      have hNot :
          ¬ (field.1 = key ∧ field.2.truthy = true) := by
        rintro ⟨hKey, hTruthy⟩
        rw [← hKey, JsonObject.get?_of_mem hMem,
          Option.any_some] at hFalsy
        exact hFalsy hTruthy
      rw [if_neg hNot]
    rw [List.map_congr_left hSame, List.map_id']

/- A field at the top, as it is shown. -/
def shown (field : JsonField) : JsonField :=
  (field.1,
    if isSecret field.1 = true ∧ field.2.truthy = true then
      redacted
    else field.2)

theorem fields_safeBody (body : JsonBody) :
    (safeBody body).fields =
      body.spread.fields.map shown := by
  rw [safeBody, fields_redact, fields_redact, List.map_map]
  apply List.map_congr_left
  intro field _
  simp only [Function.comp_apply, shown, isSecret,
    decide_eq_true_eq]
  by_cases hPassword : field.1 = "password"
  · simp [hPassword]
  · simp [hPassword]

/-
  Two fields are shown alike if they are secrets that are
  both redacted, or do not differ.
-/
theorem sameText_shown_iff
    {field field' : JsonField}
    (hAgrees : FieldAgrees FilledSecret field field') :
    SameText (shown field) (shown field') ↔
      HiddenOrSame field field' := by
  rcases field with ⟨key, v⟩
  rcases field' with ⟨key', w⟩
  rcases hAgrees with ⟨hKey, hValues⟩
  dsimp only at hKey hValues
  subst hKey
  simp only [SameText, shown, HiddenOrSame, true_and]
  -- the texts of the values themselves
  have hTexts :
      v.json = w.json ↔
        WithSameText FilledSecret key v w ∨
          v.AgreesBut (WithSameText FilledSecret) w := by
    rcases hValues with hSecret | hBelow
    · constructor
      · intro hText
        exact Or.inl ⟨hSecret, hText⟩
      · rintro (hText | hText)
        · exact hText.2
        · exact hText.json_eq fun _ _ _ hBoth => hBoth.2
    · rw [JsonVal.json_eq_iff_agreesBut hBelow]
      constructor
      · exact Or.inr
      · rintro (hText | hText)
        · exact hBelow.of_json_eq hText.2
        · exact hText
  -- values of which one is redacted are no empty ones
  have hFilled :
      v.truthy ≠ w.truthy →
        v.filled = true ∧ w.filled = true := by
    intro hDiffer
    rcases hValues with hSecret | hBelow
    · exact hSecret.2
    · exact (hDiffer hBelow.truthy_eq).elim
  have hApart : v.truthy ≠ w.truthy → v.json ≠ w.json := by
    intro hDiffer hText
    have hBoth := hFilled hDiffer
    exact
      hDiffer
        (JsonVal.truthy_eq_of_json_eq hBoth.1 hBoth.2 hText)
  by_cases hSecret : isSecret key = true
  · simp only [hSecret, true_and]
    by_cases hTruthy : v.truthy = true
    · by_cases hTruthy' : w.truthy = true
      · simp [hTruthy, hTruthy']
      · have hDiffer : v.truthy ≠ w.truthy := by
          simp [hTruthy, hTruthy']
        simp only [hTruthy, hTruthy', if_true, if_false,
          and_false, Bool.false_eq_true, false_or, ← hTexts]
        refine iff_of_false ?_ (hApart hDiffer)
        intro hText
        have hSame :=
          JsonVal.truthy_eq_of_json_eq rfl (hFilled hDiffer).2
            hText
        exact hTruthy' (hSame.symm.trans rfl)
    · by_cases hTruthy' : w.truthy = true
      · have hDiffer : v.truthy ≠ w.truthy := by
          simp [hTruthy, hTruthy']
        simp only [hTruthy, hTruthy', if_true, if_false,
          false_and, Bool.false_eq_true, false_or, ← hTexts]
        refine iff_of_false ?_ (hApart hDiffer)
        intro hText
        have hSame :=
          JsonVal.truthy_eq_of_json_eq (hFilled hDiffer).1 rfl
            hText
        exact hTruthy (hSame.trans rfl)
      · simp only [hTruthy, hTruthy', if_false, false_and,
          Bool.false_eq_true, false_or]
        exact hTexts
  · simp only [hSecret, false_and, if_false,
      Bool.false_eq_true, false_or]
    exact hTexts

/- Bodies are shown alike if each of their fields is. -/
theorem stringify_safeBody_iff
    {body body' : JsonBody}
    (hAgrees :
      body.value.AgreesBut FilledSecret body'.value) :
    (safeBody body).stringify = (safeBody body').stringify ↔
      List.Forall₂ HiddenOrSame body.spread.fields
        body'.spread.fields := by
  have hFields := JsonBody.forall₂_spread hAgrees
  rw [JsonObject.stringify, JsonObject.stringify,
    String.ofList_inj, JsonVal.json_obj_eq_iff,
    fields_safeBody, fields_safeBody,
    List.forall₂_map_left_iff, List.forall₂_map_right_iff]
  generalize body.spread.fields = fields at hFields
  generalize body'.spread.fields = fields' at hFields
  induction hFields with
  | nil => exact iff_of_true .nil .nil
  | cons hField _ ih =>
      rw [List.forall₂_cons, List.forall₂_cons,
        sameText_shown_iff hField]
      exact and_congr_right' ih

end LoggingInterceptor

end OrderApi

------------------------------------------------------------
-- Lines of Two Requests
------------------------------------------------------------

namespace OrderApi

namespace LoggingInterceptor

/- A label does not hide the text behind it. -/
theorem labelled_inj
    {label text text' ending : String}
    (hLabel : label ≠ "")
    (hSame :
      labelled label text ending =
        labelled label text' ending) :
    text = text' := by
  unfold labelled at hSame
  by_cases hText : text = ""
  · by_cases hText' : text' = ""
    · rw [hText, hText']
    · rw [if_pos hText, if_neg hText'] at hSame
      have hChars := congrArg String.toList hSame
      simp [hLabel] at hChars
  · by_cases hText' : text' = ""
    · rw [if_neg hText, if_pos hText'] at hSame
      have hChars := congrArg String.toList hSame
      simp [hLabel] at hChars
    · rw [if_neg hText, if_neg hText',
        String.append_left_inj, String.append_right_inj]
        at hSame
      exact hSame

/- One part of the details, among the others. -/
theorem intercalate_inj
    {separator : String}
    {front back : List String}
    {text text' : String}
    (hSame :
      separator.intercalate (front ++ [text] ++ back) =
        separator.intercalate (front ++ [text'] ++ back)) :
    text = text' := by
  have hFront :
      ∀ part parts, separator.intercalate
          ((part :: parts) ++ ([text] ++ back)) =
        separator.intercalate
          ((part :: parts) ++ ([text'] ++ back)) →
      separator.intercalate ([text] ++ back) =
        separator.intercalate ([text'] ++ back) := by
    intro part parts hParts
    rw [@String.intercalate_append_of_ne_nil (part :: parts)
        ([text] ++ back) separator (by simp) (by simp),
      @String.intercalate_append_of_ne_nil (part :: parts)
        ([text'] ++ back) separator (by simp) (by simp),
      String.append_right_inj] at hParts
    exact hParts
  have hBack :
      separator.intercalate ([text] ++ back) =
        separator.intercalate ([text'] ++ back) := by
    cases front with
    | nil => exact hSame
    | cons part parts =>
        apply hFront part parts
        simpa using hSame
  cases back with
  | nil => simpa using hBack
  | cons part parts =>
      rw [@String.intercalate_append_of_ne_nil [text]
          (part :: parts) separator (by simp) (by simp),
        @String.intercalate_append_of_ne_nil [text']
          (part :: parts) separator (by simp) (by simp),
        String.append_left_inj, String.append_left_inj]
        at hBack
      simpa using hBack

/- Redacting leaves as many fields as there were. -/
theorem nonempty_safeBody (body : JsonBody) :
    (safeBody body).nonempty = body.spread.nonempty := by
  unfold JsonObject.nonempty
  rw [fields_safeBody]
  cases body.spread.fields with
  | nil => rfl
  | cons field fields => rfl

theorem bodyDetails_some (body : JsonBody) :
    bodyDetails (some body) =
      if body.spread.nonempty = true then
        ["Body: " ++ (safeBody body).stringify]
      else
        [] := by
  rw [bodyDetails, nonempty_safeBody]
  simp only [and_self]

/- The details are the same if the bodies hide the rest. -/
theorem buildRequestDetails_iff
    {body body' : Option JsonBody}
    (hBodies : SameBodyButSecrets body body')
    (query params : JsObject) :
    buildRequestDetails body query params =
        buildRequestDetails body' query params ↔
      HidesSecrets body body' := by
  match body, body' with
  | none, none => exact iff_of_true rfl trivial
  | some body, some body' =>
      have hFields := JsonBody.forall₂_spread hBodies
      have hNonempty :
          body.spread.nonempty = body'.spread.nonempty := by
        unfold JsonObject.nonempty
        rw [Bool.eq_iff_iff]
        simp only [Bool.not_eq_true', List.isEmpty_eq_false_iff,
          ne_eq, ← List.length_eq_zero_iff, hFields.length_eq]
      have hShown := stringify_safeBody_iff hBodies
      unfold buildRequestDetails
      rw [bodyDetails_some, bodyDetails_some, ← hNonempty,
        HidesSecrets, ← hShown]
      by_cases hThere : body.spread.nonempty = true
      · rw [if_pos hThere, if_pos hThere]
        constructor
        · intro hDetails
          exact
            (String.append_right_inj _).mp
              (intercalate_inj hDetails)
        · intro hText
          rw [hText]
      · have hNone : body.spread.fields = [] := by
          simpa [JsonObject.nonempty] using hThere
        rw [if_neg hThere, if_neg hThere, hShown]
        rw [hNone, List.forall₂_nil_left_iff] at hFields
        rw [hNone, hFields]
        exact iff_of_true rfl .nil

end LoggingInterceptor

open LoggingInterceptor

/- One response line fixes the URL of its request. -/
theorem url_eq_of_responseLine
    {times : LogTimes}
    {handled : Handled}
    {request request' : LoggedRequest}
    (hLine :
      responseLine times request handled =
        responseLine times request' handled)
    (hMethod : request'.method = request.method)
    (hUser : request'.user = request.user) :
    request.url = request'.url := by
  have hName : usernameOf request' = usernameOf request := by
    rw [usernameOf, usernameOf, hUser]
  cases handled with
  | next statusCode =>
      have hText := (LogLine.log.inj hLine)
      rw [hMethod, hName, String.append_left_inj,
        String.append_right_inj] at hText
      exact hText
  | error error =>
      have hText := (LogLine.error.inj hLine).1
      rw [hMethod, hName, String.append_left_inj,
        String.append_right_inj] at hText
      exact hText

/-
  Two requests that differ in secrets only are logged alike
  exactly if their query strings are equal, and no secret of
  their bodies differs that is falsy or below the top.
-/
theorem logs_same_iff
    (parseQuery : String → JsObject)
    (times : LogTimes)
    (handled : Handled)
    (request request' : LoggedRequest)
    (hDiffer : DifferInSecrets parseQuery request request') :
    intercept parseQuery times handled request =
        intercept parseQuery times handled request' ↔
      request.search = request'.search ∧
        HidesSecrets request.body request'.body := by
  rcases request with
    ⟨method, path, search, ip, userAgent, user, body, params⟩
  rcases request' with
    ⟨_, _, search', _, _, _, body', _⟩
  have hBodies := hDiffer.body
  cases hDiffer.rest
  dsimp only at hBodies ⊢
  have hDetails :=
    buildRequestDetails_iff hBodies (parseQuery search) params
  constructor
  · intro hLines
    rcases List.cons.inj hLines with ⟨hRequest, hResponse⟩
    have hUrl :=
      url_eq_of_responseLine (List.cons.inj hResponse).1 rfl
        rfl
    have hSearch : search = search' :=
      (String.append_right_inj path).mp hUrl
    subst hSearch
    have hText := LogLine.log.inj hRequest
    unfold requestLine at hText
    dsimp only [usernameOf, LoggedRequest.url] at hText
    rw [String.append_right_inj, String.append_right_inj]
      at hText
    exact
      ⟨rfl, hDetails.mp (labelled_inj (by simp) hText)⟩
  · rintro ⟨rfl, hHides⟩
    have hSame := hDetails.mpr hHides
    unfold intercept requestLine
    dsimp only
    rw [hSame]
    cases handled with
    | next statusCode => rfl
    | error error => rfl

end OrderApi

------------------------------------------------------------
-- Two Logins
------------------------------------------------------------

namespace OrderApi

open LoggingInterceptor

namespace Logins

/- A query string of one parameter, or of none. -/
def parseQuery (search : String) : JsObject :=
  let parameter := search.toList.drop 1
  let name := parameter.takeWhile (· ≠ '=')
  let value := (parameter.dropWhile (· ≠ '=')).drop 1
  if parameter = [] then JsObject.empty
  else
    JsObject.empty.set (String.ofList name)
      (.str (String.ofList value))

theorem fields_parseQuery_empty :
    (parseQuery "").fields = [] := by
  simp [parseQuery, JsObject.empty]

theorem fields_parseQuery (value : String) :
    (parseQuery ("?token=" ++ value)).fields =
      [("token", .str value)] := by
  have hToken : "?token=".toList =
      ['?', 't', 'o', 'k', 'e', 'n', '='] := by
    decide
  simp [parseQuery, hToken, JsObject.empty, JsObject.set,
    insertField]

def times : LogTimes :=
  ⟨"2025-01-01T00:00:00.000Z", "2025-01-01T00:00:00.040Z",
    40⟩

/- A login with a password, and a query string. -/
def login (search password : String) : LoggedRequest where
  method := "POST"
  path := "/api/auth/login"
  search := search
  ip := "::1"
  userAgent := some "curl/8.5.0"
  user := none
  body :=
    some
      (.object
        ⟨[("email", .str "alice@example.com"),
          ("password", .str password)], by simp⟩)
  params := JsObject.empty

/- Two filled passwords are all that differs. -/
theorem agreesBut_login
    {password password' : String}
    (hFilled : password ≠ "")
    (hFilled' : password' ≠ "") :
    SameBodyButSecrets (login "" password).body
      (login "" password').body :=
  ⟨rfl, Or.inr rfl, rfl,
    Or.inl
      ⟨rfl, decide_eq_true hFilled, decide_eq_true hFilled'⟩,
    trivial⟩

end Logins

open Logins in
/- The passwords of two bodies are redacted. -/
theorem logs_same_iff_of_passwords :
    intercept Logins.parseQuery times (.next 201)
        (login "" "first") =
      intercept Logins.parseQuery times (.next 201)
        (login "" "second") := by
  refine
    (logs_same_iff Logins.parseQuery times (.next 201)
      (login "" "first") (login "" "second")
      ⟨rfl, ?_, ?_⟩).mpr ⟨rfl, ?_⟩
  · simp only [login, fields_parseQuery_empty]
    exact trivial
  · exact agreesBut_login (by decide) (by decide)
  · exact
      .cons (Or.inr (Or.inr rfl))
        (.cons (Or.inl ⟨rfl, rfl, rfl⟩) .nil)

open Logins in
/- A token in the query string is logged with the URL. -/
theorem not_logs_same :
    ¬ ∀ (parseQuery : String → JsObject) (times : LogTimes)
        (handled : Handled)
        (request request' : LoggedRequest),
      DifferInSecrets parseQuery request request' →
      intercept parseQuery times handled request =
        intercept parseQuery times handled request' := by
  intro hClaim
  have hSame :=
    hClaim Logins.parseQuery times (.next 201)
      (login ("?token=" ++ "one") "secret")
      (login ("?token=" ++ "two") "secret") ⟨rfl, ?_, ?_⟩
  · revert hSame
    decide
  · simp only [login, fields_parseQuery]
    exact ⟨rfl, Or.inl ⟨rfl, rfl, rfl⟩, trivial⟩
  · exact agreesBut_login (by decide) (by decide)

end OrderApi
