import WafRules.Text.Keyword

/-!
# Variables

A rule inspects variables of the transaction: single values such as the request method, and
collections of named members such as the request headers.  The names of the built-in variables
are keywords; any other name stands for a collection that a configuration creates itself.

## Main Definitions

* `BuiltIn` — the built-in variables, with their names.
* `Variable` — a built-in variable or a collection of the user.
* `Variable.ofName` — the variable a name stands for.
-/

namespace WafRules

/-- The built-in variables. -/
inductive BuiltIn
  | args | argsCombinedSize | argsGet | argsGetNames | argsNames | argsPost | argsPostNames
  | authType | duration | env | files | filesCombinedSize | filesNames | filesSizes
  | filesTmpnames | fullRequest | fullRequestLength | geo | global | highestSeverity
  | inboundDataError | ip | matchedVar | matchedVarName | matchedVars | matchedVarsNames
  | multipartBoundaryQuoted | multipartStrictError | multipartUnmatchedBoundary
  | outboundDataError | pathInfo | queryString | remoteAddr | remoteHost | remotePort
  | remoteUser | reqbodyError | reqbodyErrorMsg | reqbodyProcessor | requestBasename
  | requestBody | requestBodyLength | requestCookies | requestCookiesNames | requestFilename
  | requestHeaders | requestHeadersNames | requestLine | requestMethod | requestProtocol
  | requestUri | requestUriRaw | resource | responseBody | responseContentLength
  | responseContentType | responseHeaders | responseHeadersNames | responseProtocol
  | responseStatus | rule | serverAddr | serverName | serverPort | session | sessionid
  | statusLine | time | timeEpoch | tx | uniqueId | urlencodedError | user | userid | webappid
  | xml
  deriving DecidableEq, Repr

namespace BuiltIn

/-- The canonical name, in upper case. -/
def name : BuiltIn → String
  | args => "ARGS"
  | argsCombinedSize => "ARGS_COMBINED_SIZE"
  | argsGet => "ARGS_GET"
  | argsGetNames => "ARGS_GET_NAMES"
  | argsNames => "ARGS_NAMES"
  | argsPost => "ARGS_POST"
  | argsPostNames => "ARGS_POST_NAMES"
  | authType => "AUTH_TYPE"
  | duration => "DURATION"
  | env => "ENV"
  | files => "FILES"
  | filesCombinedSize => "FILES_COMBINED_SIZE"
  | filesNames => "FILES_NAMES"
  | filesSizes => "FILES_SIZES"
  | filesTmpnames => "FILES_TMPNAMES"
  | fullRequest => "FULL_REQUEST"
  | fullRequestLength => "FULL_REQUEST_LENGTH"
  | geo => "GEO"
  | global => "GLOBAL"
  | highestSeverity => "HIGHEST_SEVERITY"
  | inboundDataError => "INBOUND_DATA_ERROR"
  | ip => "IP"
  | matchedVar => "MATCHED_VAR"
  | matchedVarName => "MATCHED_VAR_NAME"
  | matchedVars => "MATCHED_VARS"
  | matchedVarsNames => "MATCHED_VARS_NAMES"
  | multipartBoundaryQuoted => "MULTIPART_BOUNDARY_QUOTED"
  | multipartStrictError => "MULTIPART_STRICT_ERROR"
  | multipartUnmatchedBoundary => "MULTIPART_UNMATCHED_BOUNDARY"
  | outboundDataError => "OUTBOUND_DATA_ERROR"
  | pathInfo => "PATH_INFO"
  | queryString => "QUERY_STRING"
  | remoteAddr => "REMOTE_ADDR"
  | remoteHost => "REMOTE_HOST"
  | remotePort => "REMOTE_PORT"
  | remoteUser => "REMOTE_USER"
  | reqbodyError => "REQBODY_ERROR"
  | reqbodyErrorMsg => "REQBODY_ERROR_MSG"
  | reqbodyProcessor => "REQBODY_PROCESSOR"
  | requestBasename => "REQUEST_BASENAME"
  | requestBody => "REQUEST_BODY"
  | requestBodyLength => "REQUEST_BODY_LENGTH"
  | requestCookies => "REQUEST_COOKIES"
  | requestCookiesNames => "REQUEST_COOKIES_NAMES"
  | requestFilename => "REQUEST_FILENAME"
  | requestHeaders => "REQUEST_HEADERS"
  | requestHeadersNames => "REQUEST_HEADERS_NAMES"
  | requestLine => "REQUEST_LINE"
  | requestMethod => "REQUEST_METHOD"
  | requestProtocol => "REQUEST_PROTOCOL"
  | requestUri => "REQUEST_URI"
  | requestUriRaw => "REQUEST_URI_RAW"
  | resource => "RESOURCE"
  | responseBody => "RESPONSE_BODY"
  | responseContentLength => "RESPONSE_CONTENT_LENGTH"
  | responseContentType => "RESPONSE_CONTENT_TYPE"
  | responseHeaders => "RESPONSE_HEADERS"
  | responseHeadersNames => "RESPONSE_HEADERS_NAMES"
  | responseProtocol => "RESPONSE_PROTOCOL"
  | responseStatus => "RESPONSE_STATUS"
  | rule => "RULE"
  | serverAddr => "SERVER_ADDR"
  | serverName => "SERVER_NAME"
  | serverPort => "SERVER_PORT"
  | session => "SESSION"
  | sessionid => "SESSIONID"
  | statusLine => "STATUS_LINE"
  | time => "TIME"
  | timeEpoch => "TIME_EPOCH"
  | tx => "TX"
  | uniqueId => "UNIQUE_ID"
  | urlencodedError => "URLENCODED_ERROR"
  | user => "USER"
  | userid => "USERID"
  | webappid => "WEBAPPID"
  | xml => "XML"

/-- Every built-in variable, once. -/
def all : List BuiltIn :=
  [args, argsCombinedSize, argsGet, argsGetNames, argsNames, argsPost, argsPostNames,
    authType, duration, env, files, filesCombinedSize, filesNames, filesSizes, filesTmpnames,
    fullRequest, fullRequestLength, geo, global, highestSeverity, inboundDataError, ip,
    matchedVar, matchedVarName, matchedVars, matchedVarsNames, multipartBoundaryQuoted,
    multipartStrictError, multipartUnmatchedBoundary, outboundDataError, pathInfo, queryString,
    remoteAddr, remoteHost, remotePort, remoteUser, reqbodyError, reqbodyErrorMsg,
    reqbodyProcessor, requestBasename, requestBody, requestBodyLength, requestCookies,
    requestCookiesNames, requestFilename, requestHeaders, requestHeadersNames, requestLine,
    requestMethod, requestProtocol, requestUri, requestUriRaw, resource, responseBody,
    responseContentLength, responseContentType, responseHeaders, responseHeadersNames,
    responseProtocol, responseStatus, rule, serverAddr, serverName, serverPort, session,
    sessionid, statusLine, time, timeEpoch, tx, uniqueId, urlencodedError, user, userid,
    webappid, xml]

theorem mem_all (v : BuiltIn) : v ∈ all := by
  cases v <;> decide

/-- Whether the variable has named members, which a selector may pick. -/
def isCollection : BuiltIn → Bool
  | args | argsGet | argsGetNames | argsNames | argsPost | argsPostNames | env | files
  | filesNames | filesSizes | filesTmpnames | geo | global | ip | matchedVars
  | matchedVarsNames | requestCookies | requestCookiesNames | requestHeaders
  | requestHeadersNames | resource | responseHeaders | responseHeadersNames | rule | session
  | tx | user | xml => true
  | _ => false

end BuiltIn

/-- A variable of the transaction. -/
inductive Variable
  | builtIn (v : BuiltIn)
  /-- A collection that the configuration creates, in its own spelling. -/
  | user (name : String)
  deriving DecidableEq, Repr

namespace Variable

/-- The variable a name stands for. -/
def ofName (name : String) : Variable :=
  match Text.keyword? BuiltIn.name BuiltIn.all name with
  | some v => builtIn v
  | none => user name

/-- The name: canonical for a built-in variable, as written for a collection of the user. -/
def name : Variable → String
  | builtIn v => v.name
  | user name => name

/-- Whether the variable has named members. -/
def isCollection : Variable → Bool
  | builtIn v => v.isCollection
  | user _ => true

/-- A name denotes a collection of the user exactly when it is no built-in name. -/
theorem ofName_eq_user_iff (text name : String) :
    ofName text = user name ↔
      text = name ∧ ∀ v : BuiltIn, Text.foldCase v.name ≠ Text.foldCase text := by
  unfold ofName
  cases found : Text.keyword? BuiltIn.name BuiltIn.all text with
  | none =>
    rw [Text.keyword?_eq_none_iff] at found
    simp only [user.injEq, iff_self_and]
    exact fun _ v => found v (BuiltIn.mem_all v)
  | some v =>
    simp only [reduceCtorEq, false_iff, not_and]
    intro _ unknown
    have := (Text.keyword?_eq_none_iff BuiltIn.name BuiltIn.all text).2 fun v _ => unknown v
    simp [found] at this

end Variable

end WafRules
