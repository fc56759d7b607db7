import ClipRender.Binary64.Arithmetic

set_option autoImplicit false

/-!
What a deployment can set, and what is the same everywhere.
-/

namespace ClipRender

structure Settings where
  appName : String
  debug : Bool
  logLevel : String
  inputDirectory : String
  outputDirectory : String
  /-- What the addresses of finished clips start with. -/
  publicBaseUrl : String
  corsOrigins : List String
  /-- Starting and cancelling renders is open to all where this is unset or empty. -/
  apiKey : Option String
  enginePath : String
  /-- The font of drawn texts; the system's where this is unset or empty. -/
  fontFile : Option String
  maxRenders : Int
  renderTimeout : Binary64
  fileMaxAge : Int
  cleanupInterval : Int
deriving DecidableEq

namespace Settings

def defaults : Settings where
  appName := "clipper-export"
  debug := false
  logLevel := "INFO"
  inputDirectory := "./temp-videos"
  outputDirectory := "./exports"
  publicBaseUrl := "http://localhost:3001"
  corsOrigins := ["http://localhost:5173"]
  apiKey := none
  enginePath := "ffmpeg"
  fontFile := none
  maxRenders := 3
  renderTimeout := Binary64.ofNat 120
  fileMaxAge := 7200
  cleanupInterval := 1800

def encoderPreset : String := "fast"

def encoderQuality : Nat := 22

def audioCodec : String := "aac"

def audioBitrate : String := "128k"

/-- Seconds between the request to stop and the kill. -/
def killGrace : Binary64 := Binary64.ofNat 3

/-- How many characters of the engine's last words are reported. -/
def reportLength : Nat := 1000

end Settings

end ClipRender
