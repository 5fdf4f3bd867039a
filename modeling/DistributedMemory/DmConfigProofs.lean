import Mathlib.Data.List.Basic

/-!
# Configuration — which server hosts which block

`Config` keeps one entry per server, in the order of the server ids (`ip:port`) as
`std::map` iterates over them. `findServerIdByBlockId` runs over all of them and lets the
last match win.
-/

namespace DmConfig

/-- The server configuration details. -/
structure ServerConf where
  ip : String
  port : String
  blocksId : List Int32
  pass : String
  privkey : String
  pubkey : String

/-- The details of every server, by server id, in ascending order of the ids. -/
abbrev ServerMap := List (String × ServerConf)

structure Config where
  servers : ServerMap

namespace Config

/-- `is_valid`. -/
def isValid (c : Config) : Bool := !c.servers.isEmpty

/-- `find`; `none` is the null reference. -/
def find (c : Config) (id : String) : Option ServerConf := c.servers.lookup id

/-- `find_all`. -/
def findAll (c : Config) : ServerMap := c.servers

/-- `find_server_id_by_block_id`; the empty string when no server lists the block. -/
def findServerIdByBlockId (c : Config) (blockId : Int32) : String :=
  c.servers.foldl
    (fun result sit => if blockId ∈ sit.2.blocksId then sit.1 else result) ""

end Config

end DmConfig
