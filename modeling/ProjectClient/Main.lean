import ProjectClient.CommandLine.Run
import ProjectClient.Http.Transfer
import ProjectClient.Settings.Location
import Std.Async.DNS
import Std.Async.TCP

/-! The client as a program: the disk, the network and the terminal of the system. -/
namespace ProjectClient.Program

def errorDetails? : IO.Error → Option (UInt32 × String)
  | .alreadyExists _ code text | .noFileOrDirectory _ code text | .inappropriateType _ code text
  | .permissionDenied _ code text | .resourceExhausted _ code text | .invalidArgument _ code text
  | .noSuchThing _ code text | .interrupted _ code text => some (code, text)
  | .otherError code text | .resourceBusy code text | .resourceVanished code text
  | .unsupportedOperation code text | .hardwareFault code text | .unsatisfiedConstraints code text
  | .illegalOperation code text | .protocolError code text | .timeExpired code text =>
    some (code, text)
  | .unexpectedEof | .userError _ => none

def fileError (error : IO.Error) : FileError :=
  match errorDetails? error with
  | some (2, _) => .notFound
  | some (17, _) => .alreadyExists
  | some (20, _) => .notADirectory
  | some (21, _) => .isADirectory
  | some (code, text) => .other s!"{text} (os error {code})"
  | none => .other (toString error)

def attempt {α : Type} (act : IO α) : IO (Except FileError α) := do
  try return .ok (← act)
  catch error => return .error (fileError error)

def files : FileSystem IO where
  isPresent path := do
    match ← attempt (IO.FS.Handle.mk path .read) with
    | .error .notFound | .error .notADirectory => return false
    | _ => return true
  makeDirectory path := attempt (IO.FS.createDirAll path)
  read path := attempt do return (← IO.FS.readBinFile path).toList
  create path := attempt (IO.FS.writeBinFile path .empty)
  write path bytes := attempt (IO.FS.writeBinFile path ⟨bytes.toArray⟩)
  -- What is buffered goes to the system. There is no call that waits for the disk.
  sync path := attempt do (← IO.FS.Handle.mk path .append).flush
  rename source target := attempt (IO.FS.rename source target)
  remove path := attempt (IO.FS.removeFile path)

partial def readLine (input : IO.FS.Stream) (reversed : List UInt8) : IO (List UInt8) := do
  match (← input.read 1).toList with
  | [] => return reversed.reverse
  | b :: _ => if b = 0x0a then return (b :: reversed).reverse else readLine input (b :: reversed)

def terminal : Terminal IO where
  print text := do
    let output ← IO.getStdout
    output.putStr text
    output.flush
  readLine := do readLine (← IO.getStdin) []

def hostName : Url.Host → String
  | .ipv6 address => Url.ipv6Text address
  | host => host.text

def socketAddress (port : UInt16) : Std.Net.IPAddr → Std.Net.SocketAddress
  | .v4 address => .v4 ⟨address, port⟩
  | .v6 address => .v6 ⟨address, port⟩

partial def receive (socket : Std.Async.TCP.Socket.Client) (received : ByteArray) :
    Std.Async.Async ByteArray := do
  match ← socket.recv? 65536 with
  | some bytes => receive socket (received ++ bytes)
  | none => return received

def exchange (url : Url) (bytes : ByteArray) : IO ByteArray :=
  Std.Async.Async.block do
    let port := url.port.getD (UInt16.ofNat url.scheme.defaultPort)
    let addresses ← Std.Async.DNS.getAddrInfo (hostName url.host) (toString port)
    match addresses.toList with
    | [] => throw (IO.userError "no address found")
    | address :: _ => do
      let socket ← Std.Async.TCP.Socket.Client.mk
      socket.connect (socketAddress port address)
      socket.send bytes
      receive socket .empty

def network : Http.Network IO := fun request => do
  match request.url.scheme with
  | .https => return .error "no secure connections"
  | .http =>
    try
      let bytes ← exchange request.url ⟨request.bytes.toArray⟩
      match Http.Response.ofBytes? bytes.toList with
      | some response => return .ok response
      | none => return .error "connection closed before a response"
    catch error => return .error (toString error)

def host : IO (CommandLine.Host IO) := do
  return {
    files, network, terminal
    directory := settingsDirectory? (← IO.getEnv "XDG_CONFIG_HOME") (← IO.getEnv "HOME")
    server := ← IO.getEnv CommandLine.serverVariable }

end ProjectClient.Program

open ProjectClient in
def main (words : List String) : IO UInt32 := do
  let ending ← (← Program.host).run words
  match ending with
  | .misused => IO.eprint CommandLine.usage
  | ending => IO.eprint (ending.report?.getD "")
  return ending.exitCode
