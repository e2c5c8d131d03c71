import ProjectClient.CommandLine.Run
import ProjectClient.Files.Disk
import ProjectClient.Http.Script

/-! A machine in memory to run the client on: a disk, a server within reach and a terminal. -/
namespace ProjectClient

structure Machine where
  disk : Disk := {}
  server : Http.ScriptedServer
  input : List UInt8 := []
  printed : String := ""

namespace Machine

def onDisk {α : Type} (act : StateM Disk α) : StateM Machine α := fun machine =>
  let (result, disk) := act machine.disk
  (result, { machine with disk })

def files : FileSystem (StateM Machine) := Disk.files.lift onDisk

def network : Http.Network (StateM Machine) := fun request machine =>
  let (answer, server) := machine.server.serve request
  (answer, { machine with server })

def print (text : String) : StateM Machine Unit := fun machine =>
  ((), { machine with printed := machine.printed ++ text })

def splitLine : List UInt8 → List UInt8 × List UInt8
  | [] => ([], [])
  | b :: rest =>
    if b = 0x0a then ([b], rest)
    else
      let (line, rest) := splitLine rest
      (b :: line, rest)

def terminal : Terminal (StateM Machine) where
  print := print
  readLine := fun machine =>
    let (line, input) := splitLine machine.input
    (line, { machine with input })

def host (directory server : Option String) : CommandLine.Host (StateM Machine) where
  files := files
  directory := directory
  network := network
  terminal := terminal
  server := server

end Machine

end ProjectClient
