import TableFlow.Bulk.Http
import TableFlow.Proofs.Xml.Markup

namespace TableFlow.Bulk.Http

open Xml

def envelopeStart : List (String × String) :=
  [("?xml version=\"1.0\" encoding=\"utf-8\" ?", ""),
   ("env:Envelope xmlns:xsd=\"http://www.w3.org/2001/XMLSchema\" " ++
      "xmlns:xsi=\"http://www.w3.org/2001/XMLSchema-instance\" " ++
      "xmlns:env=\"http://schemas.xmlsoap.org/soap/envelope/\"", ""),
   ("env:Body", ""), ("n1:login xmlns:n1=\"urn:partner.soap.sforce.com\"", "")]

def envelopeEnd : List (String × String) :=
  [("/n1:login", ""), ("/env:Body", ""), ("/env:Envelope", "")]

/-- A login as it is to be read. -/
def loginMarkup (c : Credentials) : List (String × String) :=
  envelopeStart ++
    ("n1:username", c.username) :: ("/n1:username", "") ::
    ("n1:password", c.password ++ c.securityToken) :: ("/n1:password", "") :: envelopeEnd

def jobStart : List (String × String) :=
  [("?xml version=\"1.0\" encoding=\"UTF-8\"?", ""),
   ("jobInfo xmlns=\"http://www.force.com/2009/06/asyncapi/dataload\"", "")]

def jobEnd : List (String × String) :=
  [("contentType", "CSV"), ("/contentType", ""), ("/jobInfo", "")]

def jobMarkup (operation : Operation) (object : String) : List (String × String) :=
  jobStart ++ ("operation", operation.name) :: ("/operation", "") :: ("object", object) ::
    ("/object", "") :: jobEnd

theorem flat_envelopeStart : ∀ block ∈ envelopeStart, Flat block.1 := by
  have hspaces : Flat ("env:Envelope xmlns:xsd=\"http://www.w3.org/2001/XMLSchema\" " ++
      "xmlns:xsi=\"http://www.w3.org/2001/XMLSchema-instance\" " ++
      "xmlns:env=\"http://schemas.xmlsoap.org/soap/envelope/\"") :=
    .append (.append (by decide +kernel) (by decide +kernel)) (by decide +kernel)
  have hlogin : Flat "n1:login xmlns:n1=\"urn:partner.soap.sforce.com\"" := by decide +kernel
  rw [envelopeStart, List.forall_mem_cons, List.forall_mem_cons, List.forall_mem_cons,
    List.forall_mem_singleton]
  exact ⟨by decide +kernel, hspaces, by decide, hlogin⟩

theorem flat_jobStart : ∀ block ∈ jobStart, Flat block.1 := by
  have hspace : Flat "jobInfo xmlns=\"http://www.force.com/2009/06/asyncapi/dataload\"" := by
    decide +kernel
  rw [jobStart, List.forall_mem_cons, List.forall_mem_singleton]
  exact ⟨by decide +kernel, hspace⟩

theorem written_fields (start : List (String × String)) (tag text tag' text' : String)
    (finish : List (String × String)) :
    written (start ++ (tag, text) :: ("/" ++ tag, "") :: (tag', text') ::
      ("/" ++ tag', "") :: finish) =
      written start ++ element tag text ++ element tag' text' ++ written finish := by
  rw [written_append, written_element, written_element]
  simp [escape, String.append_assoc]

/-- Each of two elements is found once and for itself, if its tag stands nowhere else. -/
theorem texts_fields {start finish : List (String × String)} {text text' : String}
    (tag tag' : String)
    (h : ∀ block ∈ start ++ (tag, text) :: ("/" ++ tag, "") :: (tag', text') :: ("/" ++ tag',
      "") :: finish, Flat block.1)
    (hbefore : tag ∉ start.map Prod.fst)
    (hafter : tag ∉ tag' :: ("/" ++ tag') :: finish.map Prod.fst)
    (hbefore' : tag' ∉ start.map Prod.fst ++ [tag, "/" ++ tag])
    (hafter' : tag' ∉ finish.map Prod.fst) :
    let document :=
      written (start ++ (tag, text) :: ("/" ++ tag, "") :: (tag', text') ::
        ("/" ++ tag', "") :: finish)
    texts tag document = [text] ∧ texts tag' document = [text'] := by
  refine ⟨texts_written h hbefore hafter, ?_⟩
  have hsplit : start ++ (tag, text) :: ("/" ++ tag, "") :: (tag', text') ::
      ("/" ++ tag', "") :: finish =
      (start ++ [(tag, text), ("/" ++ tag, "")]) ++ (tag', text') :: ("/" ++ tag', "") ::
        finish := by simp
  rw [hsplit] at h ⊢
  exact texts_written h (by rwa [List.map_append]) hafter'

theorem loginEnvelope_eq (c : Credentials) : loginEnvelope c = written (loginMarkup c) := by
  have hstart : written envelopeStart = "<?xml version=\"1.0\" encoding=\"utf-8\" ?>" ++
      "<env:Envelope xmlns:xsd=\"http://www.w3.org/2001/XMLSchema\" " ++
      "xmlns:xsi=\"http://www.w3.org/2001/XMLSchema-instance\" " ++
      "xmlns:env=\"http://schemas.xmlsoap.org/soap/envelope/\">" ++
      "<env:Body><n1:login xmlns:n1=\"urn:partner.soap.sforce.com\">" := by decide +kernel
  have hend : written envelopeEnd = "</n1:login></env:Body></env:Envelope>" := by decide +kernel
  rw [loginMarkup, show "/n1:username" = "/" ++ "n1:username" from rfl,
    show "/n1:password" = "/" ++ "n1:password" from rfl,
    written_fields, hstart, hend]
  rfl

theorem jobDocument_eq (operation : Operation) (object : String) :
    jobDocument (jobContent operation object) = written (jobMarkup operation object) := by
  have hstart : written jobStart = "<?xml version=\"1.0\" encoding=\"UTF-8\"?>" ++
      "<jobInfo xmlns=\"http://www.force.com/2009/06/asyncapi/dataload\">" := by decide +kernel
  have hend : written jobEnd = element "contentType" "CSV" ++ "</jobInfo>" := by decide +kernel
  have hassoc (a b c d e : String) : a ++ (b ++ c ++ d) ++ e = a ++ b ++ c ++ (d ++ e) := by
    simp only [String.append_assoc]
  rw [jobMarkup, show "/operation" = "/" ++ "operation" from rfl,
    show "/object" = "/" ++ "object" from rfl,
    written_fields, hstart, hend]
  exact hassoc _ _ _ _ _

theorem flat_loginMarkup (c : Credentials) : ∀ block ∈ loginMarkup c, Flat block.1 := by
  intro block hblock
  rw [loginMarkup, List.mem_append] at hblock
  rcases hblock with hblock | hblock
  · exact flat_envelopeStart block hblock
  · have htags : ∀ tag ∈ ["n1:username", "/n1:username", "n1:password", "/n1:password", "/n1:login",
        "/env:Body", "/env:Envelope"],
        Flat tag := by decide +kernel
    exact htags block.1 (List.mem_map_of_mem hblock)

theorem flat_jobMarkup (operation : Operation) (object : String) :
    ∀ block ∈ jobMarkup operation object, Flat block.1 := by
  intro block hblock
  rw [jobMarkup, List.mem_append] at hblock
  rcases hblock with hblock | hblock
  · exact flat_jobStart block hblock
  · have htags : ∀ tag ∈ ["operation", "/operation", "object", "/object", "contentType",
        "/contentType", "/jobInfo"], Flat tag := by
      decide +kernel
    exact htags block.1 (List.mem_map_of_mem hblock)

/-- Neither a login nor a request for a job has other tags, or other texts between them, than
those that it is to have, whatever the strings that are put into it. Each string is the text of
the one element that is meant for it. -/
theorem requests_keep_their_markup (c : Credentials) (session : Session) (operation : Operation)
    (object : String) :
    let login := (loginRequest c).body
    let job := (request c session (.createJob operation object)).body
    (markup login.toList = loginMarkup c ∧ texts "n1:username" login = [c.username] ∧
      texts "n1:password" login = [c.password ++ c.securityToken]) ∧
    markup job.toList = jobMarkup operation object ∧ texts "operation" job = [operation.name] ∧
      texts "object" job = [object] := by
  intro login job
  have hlogin : login = written (loginMarkup c) := loginEnvelope_eq c
  have hjob : job = written (jobMarkup operation object) := jobDocument_eq operation object
  rw [hlogin, hjob]
  refine ⟨⟨markup_written (flat_loginMarkup c), ?_⟩,
    markup_written (flat_jobMarkup operation object), ?_⟩
  · exact texts_fields "n1:username" "n1:password" (flat_loginMarkup c) (by decide +kernel)
      (by decide +kernel) (by decide +kernel) (by decide +kernel)
  · exact texts_fields "operation" "object" (flat_jobMarkup operation object) (by decide +kernel)
      (by decide +kernel) (by decide +kernel) (by decide +kernel)

end TableFlow.Bulk.Http
