import Zenstier.Ai.Console
import Zenstier.Ai.Context
import Zenstier.Ai.Stream
import Zenstier.Auth.Service
import Zenstier.Concurrent.Lift
import Zenstier.Teams.Service
import Zenstier.Tokens.Service

/-!
# The routes that are metered

`POST /api/v1/agent/enroll` needs no session, and `POST /api/ai/chat` costs money.  Both charge a
counter before they do what they are for: the one of the address a request comes from, the other of
the user.  `Site` is the joint state of what they ask.

The provider of the assistant is outside; `Site.provider` is what it answers.  What the route has
sent when a client goes away is the beginning of what it sends here.
-/

namespace Zenstier.Api

open Store Concurrent

/-! ## The stores behind the routes -/

/-- What comes of a request to the provider. -/
inductive Completion
  /-- The client has gone away. -/
  | aborted
  | rejected (status : Nat)
  /-- A response, by the chunks in which its body is read. -/
  | body (values : List (List UInt8))
deriving DecidableEq, Repr

/-- The audit entry `AI_CONSULTED`. -/
structure Consultation where
  userId : String
  teamId : String
  model : String
  prompt : JsString
  devices : List String
deriving DecidableEq, Repr

/-- The requests of the assistant. -/
inductive ChatOp : Type → Type
  /-- The devices of the team among some. -/
  | findOwned (teamId : String) (deviceIds : List String) : ChatOp (List String)
  | createConsultation (row : Consultation) : ChatOp Unit
  | buildDeviceRoster (teamId : String) (deviceIds : List String) : ChatOp JsString
  | buildMetricsSnapshot (teamId : String) (deviceIds : List String) : ChatOp JsString
  | buildHistoryContext (teamId : String) (deviceIds : List String) : ChatOp JsString
  | fetch (messages : List ChatMessage) : ChatOp Completion

inductive SiteOp (β : Type)
  | team (op : TeamOp β)
  | limiter (op : AuthOp β)
  | token (op : TokenOp β)
  | chat (op : ChatOp β)

structure Site where
  team : TeamStore
  /-- The counters of the limiter. -/
  limiter : AuthStore
  tokens : Backend
  context : ContextStore
  consultations : List Consultation
  provider : List ChatMessage → Completion

/-- The public ids of the devices of a team among some. -/
def findOwned (db : ContextStore) (teamId : String) (deviceIds : List String) : List String :=
  (db.devices.findMany fun _ d ↦ d.teamId = teamId ∧ d.deviceId ∈ deviceIds).map (·.2.deviceId)

namespace Site

variable (cr : Crypto) (L : Locale) (s : Site)

def serveChat {β : Type} : ChatOp β → Except Err β × Site
  | .findOwned teamId deviceIds => (.ok (findOwned s.context teamId deviceIds), s)
  | .createConsultation row => (.ok (), { s with consultations := s.consultations ++ [row] })
  | .buildDeviceRoster teamId deviceIds => (.ok (s.context.buildDeviceRoster L teamId deviceIds), s)
  | .buildMetricsSnapshot teamId deviceIds =>
      (.ok (s.context.buildMetricsSnapshot L teamId deviceIds), s)
  | .buildHistoryContext teamId deviceIds =>
      (.ok (s.context.buildHistoryContext teamId deviceIds 5), s)
  | .fetch messages => (.ok (s.provider messages), s)

/-- Serves one request. -/
def serve {β : Type} : SiteOp β → Except Err β × Site
  | .team op => ((s.team.serve op).1, { s with team := (s.team.serve op).2 })
  | .limiter op => ((s.limiter.serve cr op).1, { s with limiter := (s.limiter.serve cr op).2 })
  | .token op => ((s.tokens.serve op).1, { s with tokens := (s.tokens.serve op).2 })
  | .chat op => s.serveChat L op

end Site

def siteServer (cr : Crypto) (L : Locale) : Server SiteOp Err Site := ⟨fun op s ↦ s.serve cr L op⟩

/-- Programs of the routes. -/
abbrev SiteM := Prog SiteOp Err

def onTeam {α : Type} (p : TeamM α) : SiteM α := p.lift fun _ ↦ .team

def onLimiter {α : Type} (p : AuthM α) : SiteM α := p.lift fun _ ↦ .limiter

def onTokens {α : Type} (p : TokenM α) : SiteM α := p.lift fun _ ↦ .token

/-- The part of the environment that the routes read. -/
structure Settings where
  agentMqttHost : String
  agentMqttPort : Int
  /-- What the CA file contains, if there is one that can be read. -/
  caPem : Option String
  aiConfigured : Bool
  aiModel : String
  aiRateLimitPerHour : Nat
  /-- `JSON.parse`. -/
  parse : String → Option Json

inductive Response
  /-- A status and, for the enrollment, the code and the message of the error. -/
  | refused (status : Nat) (error message : String)
  | rateLimited (retryAfter : Int)
  | enrolled (deviceId : String) (host : String) (port : Int) (username password : String)
      (caPem : Option String) (groups : List String)
  | stream (chunks : List JsString)
deriving DecidableEq, Repr

/-- `Math.ceil(wait / 1000)` -/
def retryAfter (wait : Int) : Int := (wait + 999) / 1000

/-! ## Enrollment -/

structure EnrollOs where
  distro : Option String := none
  version : Option String := none
  kernel : Option String := none
  arch : Option String := none
  pretty : Option String := none
deriving DecidableEq, Repr

structure EnrollBody where
  hostname : Option String := none
  os : Option EnrollOs := none
  agentVersion : Option String := none
deriving DecidableEq, Repr

/-- `z.string().max(n).optional()` -/
def maxLength (n : Nat) (field : Option String) : Bool := field.all fun s ↦ utf16Length s ≤ n

def enrollSchema (body : EnrollBody) : Option EnrollBody :=
  if maxLength 255 body.hostname ∧ maxLength 64 body.agentVersion ∧ body.os.all fun os ↦
      maxLength 128 os.distro ∧ maxLength 128 os.version ∧ maxLength 128 os.kernel ∧
        maxLength 32 os.arch ∧ maxLength 255 os.pretty then
    some body
  else none

/-- What is passed on of a body. -/
def EnrollBody.facts (body : EnrollBody) : HostFacts where
  hostname := body.hostname
  osName := body.os.bind (·.distro)
  osVersion := body.os.bind (·.version)
  kernel := body.os.bind (·.kernel)
  arch := body.os.bind (·.arch)
  agentVersion := body.agentVersion

structure EnrollRequest where
  /-- `x-forwarded-for` -/
  forwarded : Option String
  /-- `x-real-ip` -/
  realIp : Option String
  authorization : Option String
  /-- The body, if it is an object with fields of these types. -/
  body : Option EnrollBody
deriving DecidableEq, Repr

def bearer (authorization : Option String) : Option String :=
  match authorization with
  | none => none
  | some header =>
      if "Bearer ".toList <+: header.toList then
        truthy (some (trim (String.ofList (header.toList.drop 7))))
      else none

def enrollKey (ip : String) : String := "enroll:" ++ ip

def ENROLL_LIMIT : Nat := 20

def ENROLL_WINDOW_MS : Int := 10 * 60000

/-- The redemption, and what is made of its errors. -/
def enrollWithToken (dig : Digests) (cfg : Settings) (token : String) (body : EnrollBody) :
    SiteM Response :=
  tryCatch (do
    let result ← onTokens (consumeEnrollmentToken dig token body.facts)
    return .enrolled result.deviceId cfg.agentMqttHost cfg.agentMqttPort result.mqttUsername
      result.mqttPassword cfg.caPem (truthy result.groupId).toList) fun err ↦ match err with
    | .enrollment message code status => return .refused status code message
    | _ => return .refused 500 "internal" "Enrollment failed"

/-- `POST /api/v1/agent/enroll` -/
def enrollPost (dig : Digests) (cfg : Settings) (request : EnrollRequest) : SiteM Response := do
  let ip := clientIp request.forwarded request.realIp
  let wait ← onLimiter (consumeRateLimit (enrollKey ip) ENROLL_LIMIT ENROLL_WINDOW_MS)
  if 0 < wait then return .rateLimited (retryAfter wait)
  else match bearer request.authorization with
  | none => return .refused 401 "missing_token" "Authorization: Bearer <token> required"
  | some token => match request.body.bind enrollSchema with
      | none => return .refused 400 "invalid_body" "Malformed enrollment payload"
      | some body => enrollWithToken dig cfg token body

/-! ## The assistant -/

/-- The messages that `streamChat` makes of the parts of the context. -/
def chatMessages (roster metrics recent : JsString) (history : List ChatMessage) :
    List ChatMessage :=
  let volatile := volatileBlock metrics recent
  [⟨.system, utf16 SYSTEM_PROMPT⟩, ⟨.system, roster⟩] ++ chatTurns history ++
    if volatile = [] then []
    else [⟨.system, utf16 "Live context as of this request:\n\n" ++ volatile⟩]

theorem chatMessages_eq (L : Locale) (db : ContextStore) (teamId : String)
    (deviceIds : List String) (history : List ChatMessage) :
    chatMessages (db.buildDeviceRoster L teamId deviceIds)
      (db.buildMetricsSnapshot L teamId deviceIds) (db.buildHistoryContext teamId deviceIds 5)
      history = Zenstier.streamChat L db teamId deviceIds history := rfl

/-- The deltas, or the message of an `AiError`. -/
def streamChat (cfg : Settings) (teamId : String) (deviceIds : List String)
    (history : List ChatMessage) : SiteM (Except String (List JsString)) :=
  if cfg.aiConfigured = false then
    return .error ("No AI provider is configured. Set AI_API_KEY (and optionally AI_BASE_URL / " ++
      "AI_MODEL) in .env")
  else do
    let roster ← .perform (.chat (.buildDeviceRoster teamId deviceIds))
    let metrics ← .perform (.chat (.buildMetricsSnapshot teamId deviceIds))
    let recent ← .perform (.chat (.buildHistoryContext teamId deviceIds))
    match ← Prog.attempt (.perform (.chat (.fetch
        (chatMessages roster metrics recent history)))) with
    | .error err => return .error ("Could not reach the AI provider: " ++ err.toString)
    | .ok .aborted => return .ok []
    | .ok (.rejected status) => return .error ("AI provider returned " ++ toString status ++
        ". Check AI_API_KEY, AI_BASE_URL and AI_MODEL.")
    | .ok (.body values) => return .ok (streamDeltas cfg.parse values)

structure ChatRequest where
  /-- The session. -/
  user : Option SessionUser
  /-- Ids that the database assigns, if the user has no team yet. -/
  ids : TeamIds
  /-- The body, if it is an object with fields of these types. -/
  body : Option ChatBody

def aiKey (userId : String) : String := "ai:" ++ userId

def AI_WINDOW_MS : Int := 60 * 60000

/-- What the route sends, the error of a stream in place of its deltas. -/
def chunksOf : Except Err (Except String (List JsString)) → List JsString
  | .ok (.ok deltas) => deltas
  | .ok (.error message) => [utf16 ("\n\n**" ++ message ++ "**")]
  | .error _ => [utf16 "\n\n**The assistant failed.**"]

/-- A consultation that is not rate limited. -/
def consult (cfg : Settings) (ctx : TeamContext) (deviceIds : List String)
    (messages : List ChatTurn) : SiteM Response := do
  let owned ← .perform (.chat (.findOwned ctx.teamId deviceIds))
  let prompt := (messages.getLast?.map fun m ↦ utf16 m.content).getD []
  .perform (.chat (.createConsultation
    { userId := ctx.user.id, teamId := ctx.teamId, model := cfg.aiModel
      prompt := prompt.take 500, devices := owned }))
  let streamed ← Prog.attempt (streamChat cfg ctx.teamId owned
    (messages.map fun m ↦ ⟨m.role, utf16 m.content⟩))
  return .stream (chunksOf streamed)

/-- `POST /api/ai/chat` -/
def chatPost (cfg : Settings) (request : ChatRequest) : SiteM Response :=
  match request.user with
  | none => return .refused 401 "" "Unauthorized"
  | some user => do
      match ← Prog.attempt (onTeam (getTeamContext request.ids user)) with
      | .error _ => return .refused 401 "" "Unauthorized"
      | .ok ctx =>
          if "ai:use" ∉ ctx.permissions then return .refused 403 "" "Forbidden"
          else match request.body.bind bodySchema with
          | none => return .refused 400 "" "Invalid request"
          | some (deviceIds, messages) => do
              let wait ← onLimiter (consumeRateLimit (aiKey ctx.user.id) cfg.aiRateLimitPerHour
                AI_WINDOW_MS)
              if 0 < wait then return .rateLimited (retryAfter wait)
              else consult cfg ctx deviceIds messages

/-! ## Requests to the routes -/

inductive RouteCall
  | enroll (request : EnrollRequest)
  | chat (request : ChatRequest)

def RouteCall.prog (dig : Digests) (cfg : Settings) : RouteCall → SiteM Response
  | .enroll request => enrollPost dig cfg request
  | .chat request => chatPost cfg request

end Zenstier.Api
