import PickBroker.Exception
import Mathlib.Data.List.Basic

namespace PickBroker

/-- The gRPC status codes the services finish with. -/
inductive StatusCode where
  | OK
  | CANCELLED
  | UNKNOWN
  | INVALID_ARGUMENT
  | RESOURCE_EXHAUSTED
  | INTERNAL
  | UNAVAILABLE
  | UNAUTHENTICATED
  deriving DecidableEq, Repr

structure Status where
  code : StatusCode
  message : String := ""
  deriving DecidableEq, Repr

namespace Status

def ok : Status := { code := .OK }

def cancelled : Status := { code := .CANCELLED }

def serverShutdown : Status :=
  { code := .UNAVAILABLE, message := "Server shutdown - try again later" }

def invalidAccessToken : Status :=
  { code := .UNAUTHENTICATED, message := "Invalid access token" }

end Status

theorem localhost_ne_empty : "localhost" ≠ "" := by decide

theorem defaultPort_ne_zero : (50000 : UInt16) ≠ 0 := by decide

theorem noText_ne_empty : (none : Option String) ≠ some "" := nofun

/-- Options of a gRPC server. The setters reject empty texts and port zero. -/
structure GRPCServerOptions where
  mHost : String := "localhost"
  mPort : UInt16 := 50000
  mAccessToken : Option String := none
  mServerCertificate : Option String := none
  mServerKey : Option String := none
  mClientCertificate : Option String := none
  mReflectionEnabled : Bool := false
  host_ne_empty : mHost ≠ "" := by first | exact localhost_ne_empty | decide
  port_ne_zero : mPort ≠ 0 := by first | exact defaultPort_ne_zero | decide
  token_ne_empty : mAccessToken ≠ some "" := by first | exact noText_ne_empty | decide
  certificate_ne_empty : mServerCertificate ≠ some "" := by
    first | exact noText_ne_empty | decide
  key_ne_empty : mServerKey ≠ some "" := by first | exact noText_ne_empty | decide
  client_certificate_ne_empty : mClientCertificate ≠ some "" := by
    first | exact noText_ne_empty | decide

def GRPCServerOptions.setAccessToken (options : GRPCServerOptions) (accessToken : String) :
    Except Exception GRPCServerOptions :=
  if h : accessToken = "" then
    .error (.invalid_argument "Access token cannot be empty.")
  else
    .ok { options with
      mAccessToken := some accessToken
      token_ne_empty := fun he => h (Option.some.inj he) }

/-- What the other setters of a text do: it may not be empty. -/
def setText (what text : String) (set : text ≠ "" → GRPCServerOptions) :
    Except Exception GRPCServerOptions :=
  if h : text = "" then .error (.invalid_argument what) else .ok (set h)

namespace GRPCServerOptions

def setHost (options : GRPCServerOptions) (host : String) : Except Exception GRPCServerOptions :=
  setText "Host cannot be empty." host fun h =>
    { options with mHost := host, host_ne_empty := h }

def setPort (options : GRPCServerOptions) (port : UInt16) : Except Exception GRPCServerOptions :=
  if h : port = 0 then .error (.invalid_argument "Port cannot be 0.")
  else .ok { options with mPort := port, port_ne_zero := h }

def setServerCertificate (options : GRPCServerOptions) (serverCertificate : String) :
    Except Exception GRPCServerOptions :=
  setText "Server certificate cannot be empty." serverCertificate fun h =>
    { options with
      mServerCertificate := some serverCertificate
      certificate_ne_empty := fun he => h (Option.some.inj he) }

def setServerKey (options : GRPCServerOptions) (serverKey : String) :
    Except Exception GRPCServerOptions :=
  setText "Server key cannot be empty." serverKey fun h =>
    { options with
      mServerKey := some serverKey
      key_ne_empty := fun he => h (Option.some.inj he) }

def setClientCertificate (options : GRPCServerOptions) (clientCertificate : String) :
    Except Exception GRPCServerOptions :=
  setText "Client certificate cannot be empty." clientCertificate fun h =>
    { options with
      mClientCertificate := some clientCertificate
      client_certificate_ne_empty := fun he => h (Option.some.inj he) }

def enableReflection (options : GRPCServerOptions) : GRPCServerOptions :=
  { options with mReflectionEnabled := true }

def disableReflection (options : GRPCServerOptions) : GRPCServerOptions :=
  { options with mReflectionEnabled := false }

end GRPCServerOptions

/-- Whether `start` secures a service: it needs the key and the certificate. -/
def GRPCServerOptions.secures (options : GRPCServerOptions) : Bool :=
  options.mServerKey.isSome && options.mServerCertificate.isSome

/-- The token check of both services: an empty token is carried by everyone. -/
def carriesToken (client_metadata : List (String × String)) (accessToken : String) : Bool :=
  accessToken.isEmpty ||
    client_metadata.any fun item => item.1 == "x-custom-auth-token" && item.2 == accessToken

def validatePublisher : List (String × String) → String → Bool := carriesToken

def validateSubscriber : List (String × String) → String → Bool := carriesToken

/-- A secured service with an access token refuses whom `validate` does not accept. -/
def GRPCServerOptions.refuses (options : GRPCServerOptions) (isSecured : Bool)
    (validate : String → Bool) : Bool :=
  match options.mAccessToken with
  | none => false
  | some accessToken => isSecured && !validate accessToken

end PickBroker
