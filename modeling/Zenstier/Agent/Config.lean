import Zenstier.Agent.ConfigFile
import Zenstier.Text.Duration
import Zenstier.Text.Utf8

/-!
# The configuration of the agent

`config.go`: what the agent keeps on its host, with its defaults, and how it is read.  Reading sets
what the file has on top of the defaults, and then puts the defaults back for what is empty.  A
configuration that this leaves as it is comes back from its file as it was saved, to the
nanosecond; no other is ever loaded.

How a document becomes a text is left to the YAML library; what this development asks of it is that
a text it has written is read as the document it was written from.
-/

namespace Zenstier.Agent.Settings

open Concurrent Prog Files Utf8

/-! ## The data -/

structure MQTTConfig where
  host : String := ""
  port : Int := 0
  username : String := ""
  password : String := ""
  caFile : String := ""
deriving DecidableEq, Repr

/-- Durations are in nanoseconds. -/
structure ExecConfig where
  shell : String
  defaultTimeout : Int
  maxTimeout : Int
  maxConcurrent : Int
  queueDepth : Int
  maxOutputBytes : Int
  workDir : String
deriving DecidableEq, Repr

structure AgentConfig where
  heartbeatInterval : Int
  logLevel : String
deriving DecidableEq, Repr

structure Config where
  version : Int
  deviceID : String := ""
  serverURL : String := ""
  mqtt : MQTTConfig := {}
  exec : ExecConfig
  agent : AgentConfig
  groups : List String := []
deriving DecidableEq, Repr

def defaults : Config where
  version := 1
  exec := {
    shell := "/bin/sh"
    defaultTimeout := 5 * Duration.minute
    maxTimeout := Duration.hour
    maxConcurrent := 4
    queueDepth := 32
    maxOutputBytes := 1048576
    workDir := "/" }
  agent := { heartbeatInterval := 30 * Duration.second, logLevel := "info" }

/-! ## Documents -/

structure MQTTFile where
  host : Option String
  port : Option Int
  username : Option String
  password : Option String
  caFile : Option String
deriving DecidableEq

structure ExecFile where
  shell : Option String
  defaultTimeout : Option String
  maxTimeout : Option String
  maxConcurrent : Option Int
  queueDepth : Option Int
  maxOutputBytes : Option Int
  workDir : Option String
deriving DecidableEq

structure AgentFile where
  heartbeatInterval : Option String
  logLevel : Option String
deriving DecidableEq

/-- A document: what stands in a file, each value if it is there. -/
structure ConfigDoc where
  version : Option Int
  deviceID : Option String
  serverURL : Option String
  mqtt : MQTTFile
  exec : ExecFile
  agent : AgentFile
  groups : Option (List String)
deriving DecidableEq

/-- `MarshalYAML` of a duration. -/
def durationText (d : Int) : String := String.ofList (Duration.format d)

/-- What is marshalled of a configuration. -/
def Config.doc (cfg : Config) : ConfigDoc where
  version := cfg.version
  deviceID := cfg.deviceID
  serverURL := cfg.serverURL
  mqtt := {
    host := cfg.mqtt.host
    port := cfg.mqtt.port
    username := cfg.mqtt.username
    password := cfg.mqtt.password
    caFile := if cfg.mqtt.caFile = "" then none else cfg.mqtt.caFile }
  exec := {
    shell := cfg.exec.shell
    defaultTimeout := durationText cfg.exec.defaultTimeout
    maxTimeout := durationText cfg.exec.maxTimeout
    maxConcurrent := cfg.exec.maxConcurrent
    queueDepth := cfg.exec.queueDepth
    maxOutputBytes := cfg.exec.maxOutputBytes
    workDir := cfg.exec.workDir }
  agent := {
    heartbeatInterval := durationText cfg.agent.heartbeatInterval
    logLevel := cfg.agent.logLevel }
  groups := if cfg.groups = [] then none else cfg.groups

/-! ## Reading -/

inductive LoadError
  | read (err : FileError)
  /-- The file is group/world accessible. -/
  | accessible (mode : Nat)
  /-- The text is not a document. -/
  | parse (text : String)
  | duration (s : String) (err : Duration.ParseError)
  | missingDeviceID
  | missingMQTT
deriving DecidableEq

/-- The YAML library, and the floating-point arithmetic of the durations. -/
structure Codec where
  /-- The text in the portions in which it is written to a file. -/
  marshal : ConfigDoc → Encoded
  unmarshal : List UInt8 → Except String ConfigDoc
  product : Duration.FloatProduct

/-- What has been marshalled is unmarshalled as it was, and floating-point numbers are exact where
nothing has to be rounded. -/
structure Codec.Lawful (codec : Codec) : Prop where
  unmarshal_marshal : ∀ doc bytes, (codec.marshal doc).bytes = some bytes →
    codec.unmarshal bytes = .ok doc
  exact : Duration.Exact codec.product

section Load

variable (codec : Codec)

/-- `UnmarshalYAML` of a duration, if there is one. -/
def readDuration (s : Option String) (default : Int) : Except LoadError Int :=
  match s with
  | none => .ok default
  | some s => match Duration.parse codec.product s.toList with
    | .error err => .error (.duration s err)
    | .ok d => .ok d

/-- Sets what the document has. -/
def ConfigDoc.decode (doc : ConfigDoc) (cfg : Config) : Except LoadError Config := do
  let defaultTimeout ← readDuration codec doc.exec.defaultTimeout cfg.exec.defaultTimeout
  let maxTimeout ← readDuration codec doc.exec.maxTimeout cfg.exec.maxTimeout
  let heartbeatInterval ← readDuration codec doc.agent.heartbeatInterval cfg.agent.heartbeatInterval
  return {
    version := doc.version.getD cfg.version
    deviceID := doc.deviceID.getD cfg.deviceID
    serverURL := doc.serverURL.getD cfg.serverURL
    mqtt := {
      host := doc.mqtt.host.getD cfg.mqtt.host
      port := doc.mqtt.port.getD cfg.mqtt.port
      username := doc.mqtt.username.getD cfg.mqtt.username
      password := doc.mqtt.password.getD cfg.mqtt.password
      caFile := doc.mqtt.caFile.getD cfg.mqtt.caFile }
    exec := {
      shell := doc.exec.shell.getD cfg.exec.shell
      defaultTimeout, maxTimeout
      maxConcurrent := doc.exec.maxConcurrent.getD cfg.exec.maxConcurrent
      queueDepth := doc.exec.queueDepth.getD cfg.exec.queueDepth
      maxOutputBytes := doc.exec.maxOutputBytes.getD cfg.exec.maxOutputBytes
      workDir := doc.exec.workDir.getD cfg.exec.workDir }
    agent := { heartbeatInterval, logLevel := doc.agent.logLevel.getD cfg.agent.logLevel }
    groups := doc.groups.getD cfg.groups }

/-- Re-applies the defaults for anything the file left empty. -/
def reapplyDefaults (cfg : Config) : Config :=
  let d := defaults
  { cfg with
    exec := {
      shell := if cfg.exec.shell = "" then d.exec.shell else cfg.exec.shell
      defaultTimeout :=
        if cfg.exec.defaultTimeout = 0 then d.exec.defaultTimeout else cfg.exec.defaultTimeout
      maxTimeout := if cfg.exec.maxTimeout = 0 then d.exec.maxTimeout else cfg.exec.maxTimeout
      maxConcurrent :=
        if cfg.exec.maxConcurrent ≤ 0 then d.exec.maxConcurrent else cfg.exec.maxConcurrent
      queueDepth := if cfg.exec.queueDepth ≤ 0 then d.exec.queueDepth else cfg.exec.queueDepth
      maxOutputBytes :=
        if cfg.exec.maxOutputBytes ≤ 0 then d.exec.maxOutputBytes else cfg.exec.maxOutputBytes
      workDir := if cfg.exec.workDir = "" then d.exec.workDir else cfg.exec.workDir }
    agent := { cfg.agent with
      heartbeatInterval :=
        if cfg.agent.heartbeatInterval = 0 then d.agent.heartbeatInterval
        else cfg.agent.heartbeatInterval } }

/-- What a configuration has to have. -/
def checkConfig (cfg : Config) : Except LoadError Config :=
  if cfg.deviceID = "" then .error .missingDeviceID
  else if cfg.mqtt.host = "" ∨ cfg.mqtt.port = 0 then .error .missingMQTT
  else .ok cfg

/-- `Load`, given the permissions of the file, and what is read from it. -/
def load (stat : Except FileError Nat) (raw : Except FileError (List UInt8)) :
    Except LoadError Config :=
  match stat with
  | .error err => .error (.read err)
  | .ok mode =>
      if mode &&& 0o077 ≠ 0 then .error (.accessible mode)
      else match raw with
      | .error err => .error (.read err)
      | .ok raw => match codec.unmarshal raw with
        | .error text => .error (.parse text)
        | .ok doc => do
            let cfg ← doc.decode codec defaults
            checkConfig (reapplyDefaults cfg)

end Load

/-! ## What comes back -/

/-- The durations of a configuration fit into 64 bits. -/
structure Config.Fits (cfg : Config) : Prop where
  defaultTimeout : -2 ^ 63 ≤ cfg.exec.defaultTimeout ∧ cfg.exec.defaultTimeout < 2 ^ 63
  maxTimeout : -2 ^ 63 ≤ cfg.exec.maxTimeout ∧ cfg.exec.maxTimeout < 2 ^ 63
  heartbeatInterval : -2 ^ 63 ≤ cfg.agent.heartbeatInterval ∧ cfg.agent.heartbeatInterval < 2 ^ 63

/-- Nothing is missing from a configuration.  A negative duration is not taken for a missing
one. -/
structure Config.Complete (cfg : Config) : Prop where
  deviceID : cfg.deviceID ≠ ""
  host : cfg.mqtt.host ≠ ""
  port : cfg.mqtt.port ≠ 0
  shell : cfg.exec.shell ≠ ""
  defaultTimeout : cfg.exec.defaultTimeout ≠ 0
  maxTimeout : cfg.exec.maxTimeout ≠ 0
  maxConcurrent : 0 < cfg.exec.maxConcurrent
  queueDepth : 0 < cfg.exec.queueDepth
  maxOutputBytes : 0 < cfg.exec.maxOutputBytes
  workDir : cfg.exec.workDir ≠ ""
  heartbeatInterval : cfg.agent.heartbeatInterval ≠ 0

theorem Config.Fits.withGroups {cfg : Config} (h : cfg.Fits) (groups : List String) :
    Config.Fits { cfg with groups } :=
  ⟨h.defaultTimeout, h.maxTimeout, h.heartbeatInterval⟩

theorem Config.Complete.withGroups {cfg : Config} (h : cfg.Complete) (groups : List String) :
    Config.Complete { cfg with groups } :=
  ⟨h.deviceID, h.host, h.port, h.shell, h.defaultTimeout, h.maxTimeout, h.maxConcurrent,
    h.queueDepth, h.maxOutputBytes, h.workDir, h.heartbeatInterval⟩

section Back

variable {codec : Codec} {cfg : Config}

theorem readDuration_text (hcodec : codec.Lawful) {d : Int} (hd : -2 ^ 63 ≤ d ∧ d < 2 ^ 63)
    (default : Int) : readDuration codec (durationText d) default = .ok d := by
  rw [readDuration, durationText, String.toList_ofList, Duration.parse_format hcodec.exact hd]

theorem readDuration_fits {s : Option String} {default d : Int}
    (hdefault : -2 ^ 63 ≤ default ∧ default < 2 ^ 63)
    (h : readDuration codec s default = .ok d) : -2 ^ 63 ≤ d ∧ d < 2 ^ 63 := by
  cases s with
  | none =>
      cases h
      exact hdefault
  | some s =>
      rw [readDuration] at h
      split at h
      · cases h
      · rename_i hparse
        cases h
        exact Duration.parse_range hparse

/-- The document of a configuration says all that there is to say. -/
theorem decode_doc (hcodec : codec.Lawful) (hfits : cfg.Fits) :
    cfg.doc.decode codec defaults = .ok cfg := by
  have hcaFile : (if cfg.mqtt.caFile = "" then none else some cfg.mqtt.caFile).getD
      defaults.mqtt.caFile = cfg.mqtt.caFile := by
    split
    · exact (‹_› : cfg.mqtt.caFile = "").symm
    · rfl
  have hgroups : (if cfg.groups = [] then none else some cfg.groups).getD defaults.groups =
      cfg.groups := by
    split
    · exact (‹_› : cfg.groups = []).symm
    · rfl
  rw [ConfigDoc.decode]
  dsimp only [Config.doc]
  rw [readDuration_text hcodec hfits.defaultTimeout, readDuration_text hcodec hfits.maxTimeout,
    readDuration_text hcodec hfits.heartbeatInterval, hcaFile, hgroups]
  rfl

theorem decode_fits {doc : ConfigDoc} (h : doc.decode codec defaults = .ok cfg) : cfg.Fits := by
  rw [ConfigDoc.decode] at h
  cases hdefault : readDuration codec doc.exec.defaultTimeout defaults.exec.defaultTimeout with
  | error err =>
      rw [hdefault] at h
      cases h
  | ok defaultTimeout =>
  cases hmax : readDuration codec doc.exec.maxTimeout defaults.exec.maxTimeout with
  | error err =>
      rw [hdefault, hmax] at h
      cases h
  | ok maxTimeout =>
  cases hheartbeat : readDuration codec doc.agent.heartbeatInterval
      defaults.agent.heartbeatInterval with
  | error err =>
      rw [hdefault, hmax, hheartbeat] at h
      cases h
  | ok heartbeatInterval =>
  rw [hdefault, hmax, hheartbeat] at h
  cases h
  exact ⟨readDuration_fits (by decide) hdefault, readDuration_fits (by decide) hmax,
    readDuration_fits (by decide) hheartbeat⟩

theorem reapplyDefaults_fits (h : cfg.Fits) : (reapplyDefaults cfg).Fits := by
  constructor
  all_goals
    dsimp only [reapplyDefaults]
    split
    · decide
  · exact h.defaultTimeout
  · exact h.maxTimeout
  · exact h.heartbeatInterval

/-- Nothing is put back into a configuration from which nothing is missing. -/
theorem reapplyDefaults_complete (h : cfg.Complete) : reapplyDefaults cfg = cfg := by
  rw [reapplyDefaults]
  simp only [if_neg h.shell, if_neg h.defaultTimeout, if_neg h.maxTimeout,
    if_neg (Int.not_le.mpr h.maxConcurrent), if_neg (Int.not_le.mpr h.queueDepth),
    if_neg (Int.not_le.mpr h.maxOutputBytes), if_neg h.workDir, if_neg h.heartbeatInterval]

/-- What passes the check is complete. -/
theorem complete_of_check {cfg' : Config} (h : checkConfig (reapplyDefaults cfg) = .ok cfg') :
    cfg'.Complete := by
  rw [checkConfig] at h
  split at h
  · cases h
  split at h
  · cases h
  rename_i hdevice hmqtt
  rw [not_or] at hmqtt
  cases h
  constructor
  case deviceID => exact hdevice
  case host => exact hmqtt.1
  case port => exact hmqtt.2
  all_goals
    dsimp only [reapplyDefaults]
    split
  all_goals
    first
      | decide
      | assumption
      | exact Int.not_le.mp ‹_›

theorem checkConfig_complete (h : cfg.Complete) : checkConfig (reapplyDefaults cfg) = .ok cfg := by
  rw [reapplyDefaults_complete h, checkConfig, if_neg h.deviceID, if_neg]
  rintro (hhost | hport)
  · exact h.host hhost
  · exact h.port hport

/-- What is loaded was private, is complete and fits. -/
theorem load_eq_ok {stat : Except FileError Nat} {raw : Except FileError (List UInt8)}
    (h : load codec stat raw = .ok cfg) :
    (∃ mode, stat = .ok mode ∧ mode &&& 0o077 = 0) ∧ cfg.Complete ∧ cfg.Fits := by
  unfold load at h
  split at h
  · cases h
  rename_i mode
  split at h
  · cases h
  rename_i hmode
  refine ⟨⟨mode, rfl, not_not.mp hmode⟩, ?_⟩
  split at h
  · cases h
  split at h
  · cases h
  rename_i doc hdoc
  cases hdecode : doc.decode codec defaults with
  | error err =>
      rw [hdecode] at h
      cases h
  | ok cfg₀ =>
      rw [hdecode] at h
      replace h : checkConfig (reapplyDefaults cfg₀) = .ok cfg := h
      refine ⟨complete_of_check h, ?_⟩
      have hfits := reapplyDefaults_fits (decode_fits hdecode)
      rw [checkConfig] at h
      split at h
      · cases h
      split at h
      · cases h
      · cases h
        exact hfits

theorem load_saved (hcodec : codec.Lawful) (hcomplete : cfg.Complete) (hfits : cfg.Fits)
    {bytes : List UInt8} (hbytes : (codec.marshal cfg.doc).bytes = some bytes) {mode : Nat}
    (hmode : mode &&& 0o077 = 0) : load codec (.ok mode) (.ok bytes) = .ok cfg := by
  have hload : load codec (.ok mode) (.ok bytes) = checkConfig (reapplyDefaults cfg) := by
    unfold load
    simp only [hmode, hcodec.unmarshal_marshal _ _ hbytes, decode_doc hcodec hfits]
    rfl
  rw [hload, checkConfig_complete hcomplete]

end Back

/-- A configuration comes back from its file as it was saved if and only if the file is private to
its owner and nothing is missing from the configuration; whatever is loaded is such a
configuration, so that saving it again and loading it is no change. -/
theorem config_roundTrip {codec : Codec} (hcodec : codec.Lawful) :
    (∀ cfg : Config, cfg.Fits → ∀ bytes, (codec.marshal cfg.doc).bytes = some bytes → ∀ mode,
      load codec (.ok mode) (.ok bytes) = .ok cfg ↔ mode &&& 0o077 = 0 ∧ cfg.Complete) ∧
    ∀ stat raw cfg, load codec stat raw = .ok cfg →
      ∀ bytes, (codec.marshal cfg.doc).bytes = some bytes →
        load codec stat (.ok bytes) = .ok cfg := by
  refine ⟨fun cfg hfits bytes hbytes mode ↦ ⟨fun h ↦ ?_, fun h ↦ ?_⟩,
    fun stat raw cfg h bytes hbytes ↦ ?_⟩
  · obtain ⟨⟨mode', hstat, hmode⟩, hcomplete, -⟩ := load_eq_ok h
    cases hstat
    exact ⟨hmode, hcomplete⟩
  · exact load_saved hcodec h.2 hfits hbytes h.1
  · obtain ⟨⟨mode, rfl, hmode⟩, hcomplete, hfits⟩ := load_eq_ok h
    exact load_saved hcodec hcomplete hfits hbytes hmode

/-! ### An example -/

/-- A library that knows some documents and their texts. -/
def tableCodec (table : List (ConfigDoc × String)) : Codec where
  marshal doc := match table.find? fun e ↦ e.1 = doc with
    | some e => .ok [Utf8.utf8 e.2.toList]
    | none => .error "unsupported"
  unmarshal bytes := match table.find? fun e ↦ e.2.toList = lossy bytes with
    | some e => .ok e.1
    | none => .error "unsupported"
  product := Duration.plainProduct

/-- It reads what it has written if no two documents have the same text. -/
theorem tableCodec_lawful {table : List (ConfigDoc × String)} (h : (table.map (·.2)).Nodup) :
    (tableCodec table).Lawful := by
  refine ⟨fun doc bytes hbytes ↦ ?_, Duration.plainProduct_exact⟩
  dsimp only [tableCodec] at hbytes ⊢
  split at hbytes
  · rename_i e hfind
    obtain rfl := Option.some.inj hbytes
    have hdoc : e.1 = doc := of_decide_eq_true (List.find?_some hfind :)
    have he := List.mem_of_find?_eq_some hfind
    rw [List.flatten_singleton, lossy_utf8]
    split
    · rename_i e' hfind'
      have htext : e'.2.toList = e.2.toList := of_decide_eq_true (List.find?_some hfind' :)
      have hsame := List.inj_on_of_nodup_map h (List.mem_of_find?_eq_some hfind') he
        (String.toList_injective htext)
      rw [hsame, hdoc]
    · rename_i hnone
      have hnot := List.find?_eq_none.mp hnone e he
      exact absurd (decide_eq_true rfl) hnot
  · cases hbytes

theorem tableCodec_bytes {table : List (ConfigDoc × String)} {doc : ConfigDoc}
    {e : ConfigDoc × String} (h : table.find? (fun e ↦ e.1 = doc) = some e) :
    ((tableCodec table).marshal doc).bytes = some (Utf8.utf8 e.2.toList) := by
  dsimp only [tableCodec]
  rw [h]
  show some [Utf8.utf8 e.2.toList].flatten = _
  rw [List.flatten_singleton]

/-- The configuration of a device that has just been enrolled. -/
def enrolledConfig : Config :=
  { defaults with
    deviceID := "dev-aqid"
    serverURL := "https://zenstier.example.com"
    mqtt := {
      host := "mqtt.example.com", port := 8883, username := "dev-aqid", password := "BwgJ" } }

def enrolledText : String :=
  "version: 1\ndevice_id: dev-aqid\nserver_url: https://zenstier.example.com\n" ++
  "mqtt:\n    host: mqtt.example.com\n    port: 8883\n    username: dev-aqid\n" ++
  "    password: BwgJ\nexec:\n    shell: /bin/sh\n    default_timeout: 5m0s\n" ++
  "    max_timeout: 1h0m0s\n    max_concurrent: 4\n    queue_depth: 32\n" ++
  "    max_output_bytes: 1048576\n    work_dir: /\nagent:\n    heartbeat_interval: 30s\n" ++
  "    log_level: info\n"

/-- The same in the group `g1`. -/
def groupedConfig : Config := { enrolledConfig with groups := ["g1"] }

def enrolledCodec : Codec :=
  tableCodec [(enrolledConfig.doc, enrolledText),
    (groupedConfig.doc, enrolledText ++ "groups:\n    - g1\n")]

theorem enrolledCodec_lawful : enrolledCodec.Lawful := by
  refine tableCodec_lawful (List.nodup_cons.mpr ⟨fun h ↦ ?_, List.nodup_singleton _⟩)
  have hlength := congrArg String.length (List.mem_singleton.mp h)
  dsimp only at hlength
  rw [String.length_append] at hlength
  have hpos : 0 < "groups:\n    - g1\n".length := by decide
  omega

theorem enrolledCodec_bytes :
    (enrolledCodec.marshal enrolledConfig.doc).bytes = some (Utf8.utf8 enrolledText.toList) := by
  have hfind : List.find? (fun e : ConfigDoc × String ↦ e.1 = enrolledConfig.doc)
      [(enrolledConfig.doc, enrolledText), (groupedConfig.doc, enrolledText ++
        "groups:\n    - g1\n")] = some (enrolledConfig.doc, enrolledText) :=
    List.find?_cons_of_pos (decide_eq_true rfl)
  rw [enrolledCodec, tableCodec_bytes hfind]

theorem enrolledConfig_fits : enrolledConfig.Fits := ⟨by decide, by decide, by decide⟩

theorem enrolledConfig_complete : enrolledConfig.Complete := by
  constructor <;> decide

/-- It comes back from a private file, and is not read from one that others may read. -/
theorem config_roundTrip_enrolled :
    load enrolledCodec (.ok 0o600) (.ok (Utf8.utf8 enrolledText.toList)) = .ok enrolledConfig ∧
      load enrolledCodec (.ok 0o640) (.ok (Utf8.utf8 enrolledText.toList)) ≠
        .ok enrolledConfig := by
  have h := (config_roundTrip enrolledCodec_lawful).1 enrolledConfig enrolledConfig_fits _
    enrolledCodec_bytes
  refine ⟨(h 0o600).mpr ⟨by decide, enrolledConfig_complete⟩, fun hload ↦ ?_⟩
  exact absurd ((h 0o640).mp hload).1 (by decide)

/-! ## Starting again -/

end Zenstier.Agent.Settings
