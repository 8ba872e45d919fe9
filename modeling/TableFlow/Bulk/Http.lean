import TableFlow.Bulk.Connection
import TableFlow.Text.Blank
import TableFlow.Text.Debug
import TableFlow.Xml.Element

namespace TableFlow.Bulk

structure Credentials where
  loginUrl : String
  username : String
  password : String
  securityToken : String
  apiVersion : String
  deriving DecidableEq, Repr

def Credentials.shown (c : Credentials) : String :=
  "Credentials \x7b login_url: " ++ Text.debug c.loginUrl ++ ", username: " ++
    Text.debug c.username ++
    ", password: \"<redacted>\", api_version: " ++ Text.debug c.apiVersion ++ " \x7d"

inductive HttpMethod
  | get
  | post
  deriving DecidableEq, Repr

def HttpMethod.name : HttpMethod → String
  | .get => "GET"
  | .post => "POST"

structure HttpRequest where
  method : HttpMethod
  url : String
  headers : List (String × String)
  body : String := ""
  deriving DecidableEq, Repr

structure HttpResponse where
  status : Nat
  body : String
  deriving DecidableEq, Repr

structure Network (τ : Type) where
  send : HttpRequest → Act τ String HttpResponse
  pause : Nat → τ → τ
  clock : τ → Nat
  /-- A bound on the number of requests that will still be answered with success. -/
  answersLeft : τ → Nat

namespace Http

def withoutSlashes (url : String) : String := String.ofList (Text.dropEndOf '/' url.toList)

/-- Whether a code, which may have a namespace in front, says that the session has ended. -/
def isExpiredFault (code : String) : Bool := "INVALID_SESSION_ID".toList.isSuffixOf code.toList

def refusal (status : Nat) (body : String) : TransportError :=
  match Xml.text? "exceptionCode" body, Xml.text? "faultcode" body with
  | some code, _ =>
    if code = "InvalidSessionId" then .sessionExpired
    else .api code ((Xml.text? "exceptionMessage" body).getD "")
  | none, some code =>
    if isExpiredFault code then .sessionExpired
    else .api code ((Xml.text? "faultstring" body).getD "")
  | none, none => .http s!"status {status}: {Text.trimmed body}"

def bodyOf (response : HttpResponse) : Except TransportError String :=
  if 400 ≤ response.status then .error (refusal response.status response.body)
  else .ok response.body

def loginEnvelope (c : Credentials) : String :=
  let secret := c.password ++ c.securityToken
  "<?xml version=\"1.0\" encoding=\"utf-8\" ?>" ++
    "<env:Envelope xmlns:xsd=\"http://www.w3.org/2001/XMLSchema\" " ++
    "xmlns:xsi=\"http://www.w3.org/2001/XMLSchema-instance\" " ++
    "xmlns:env=\"http://schemas.xmlsoap.org/soap/envelope/\">" ++
    "<env:Body><n1:login xmlns:n1=\"urn:partner.soap.sforce.com\">" ++
    Xml.element "n1:username" c.username ++ Xml.element "n1:password" secret ++
    "</n1:login></env:Body></env:Envelope>"

def loginRequest (c : Credentials) : HttpRequest where
  method := .post
  url := withoutSlashes c.loginUrl ++ "/services/Soap/u/" ++ c.apiVersion
  headers := [("Content-Type", "text/xml; charset=UTF-8"), ("SOAPAction", "login")]
  body := loginEnvelope c

/-- The address that serves the calls: what stands before the path of the address that a login
answers with. -/
def instanceUrl (serverUrl : String) : String :=
  match Text.cut "/services/".toList serverUrl.toList with
  | some (before, _) => String.ofList before
  | none => withoutSlashes serverUrl

def readSession (body : String) : Except TransportError Session := do
  let some sessionId :=
    Xml.text? "sessionId" body | .error (.unexpected "login response without sessionId")
  let some serverUrl :=
    Xml.text? "serverUrl" body | .error (.unexpected "login response without serverUrl")
  .ok ⟨instanceUrl serverUrl, sessionId⟩

def jobDocument (content : String) : String :=
  "<?xml version=\"1.0\" encoding=\"UTF-8\"?><jobInfo xmlns=\"http://www.force.com/2009/06/asyncapi/dataload\">" ++
    content ++ "</jobInfo>"

def path {α : Type} : Call α → String
  | .createJob .. => ""
  | .addBatch job _ => s!"/{job}/batch"
  | .batchInfo job batch => s!"/{job}/batch/{batch}"
  | .closeJob job => s!"/{job}"
  | .queryResultIds job batch => s!"/{job}/batch/{batch}/result"
  | .queryResultChunk job batch result => s!"/{job}/batch/{batch}/result/{result}"
  | .batchResults job batch => s!"/{job}/batch/{batch}/result"

def jobContent (operation : Operation) (object : String) : String :=
  Xml.element "operation" operation.name ++ Xml.element "object" object ++
    Xml.element "contentType" "CSV"

def content {α : Type} : Call α → Option (String × String)
  | .createJob operation object =>
      some ("application/xml; charset=UTF-8", jobDocument (jobContent operation object))
  | .addBatch _ payload => some ("text/csv; charset=UTF-8", payload)
  | .closeJob _ =>
      some ("application/xml; charset=UTF-8", jobDocument (Xml.element "state" "Closed"))
  | .batchInfo .. | .queryResultIds .. | .queryResultChunk .. | .batchResults .. => none

def request {α : Type} (c : Credentials) (session : Session) (call : Call α) : HttpRequest :=
  let url :=
    withoutSlashes session.instanceUrl ++ "/services/async/" ++ c.apiVersion ++ "/job" ++ path call
  let header := ("X-SFDC-Session", session.sessionId)
  match content call with
  | some (type, body) => { method := .post, url, headers := [header, ("Content-Type", type)], body }
  | none => { method := .get, url, headers := [header] }

def readJob (body : String) : Except TransportError JobInfo :=
  match Xml.text? "id" body with
  | some id => .ok ⟨id, (Xml.text? "state" body).getD ""⟩
  | none => .error (.unexpected "jobInfo without id")

def readBatch (body : String) : Except TransportError BatchInfo := do
  let some id := Xml.text? "id" body | .error (.unexpected "batchInfo without id")
  let stateText := (Xml.text? "state" body).getD ""
  let some state :=
    BatchState.ofText? stateText | .error (.unexpected s!"unknown batch state '{stateText}'")
  .ok { id, state, message := (Xml.text? "stateMessage" body).filter (· ≠ "") }

def read {α : Type} (body : String) : Call α → Except TransportError α
  | .createJob .. | .closeJob _ => readJob body
  | .addBatch .. | .batchInfo .. => readBatch body
  | .queryResultIds .. => .ok (Xml.texts "result" body)
  | .queryResultChunk .. | .batchResults .. => .ok body

variable {τ : Type}

def exchange (network : Network τ) (r : HttpRequest) : Act τ TransportError String := do
  Act.ofExcept (bodyOf (← (network.send r).mapError .http))

def transport (c : Credentials) (network : Network τ) : Transport τ where
  login := do Act.ofExcept (readSession (← exchange network (loginRequest c)))
  perform session call := do Act.ofExcept (read (← exchange network (request c session call)) call)
  pause := network.pause
  clock := network.clock
  answersLeft := network.answersLeft

end Http
end TableFlow.Bulk
