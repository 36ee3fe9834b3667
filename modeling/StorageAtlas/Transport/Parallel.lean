import StorageAtlas.Transport.Basic

/-!
Parallel SCSI: its hosts have an entry of their own class.
-/

namespace StorageAtlas.Transport.Parallel

def targetAttributes : List Text :=
  ["dt", "max_offset", "max_width", "min_period", "offset", "period", "width"]

def hostProbe (s : AttributeTree) (host : Text) : Finding :=
  let directory := s.classPath "spi_host" [host]
  if s.isDir directory then .found .spi "spi:" (s.readMany directory ["signalling"])
  else .absent

def deviceProbe (s : AttributeTree) (a : Address) (_device : Text) : Finding :=
  if s.isDir (s.classPath "spi_host" [a.hostName]) then
    let target := Text.signed a.target
    let values := s.readMany (s.classPath "spi_transport" [a.targetName]) targetAttributes
    .found .spi ("spi:" ++ target) ((OrderedMap.ofList [("target_id", target)]).update values)
  else .absent

def probe : Probe := ⟨hostProbe, deviceProbe⟩

end StorageAtlas.Transport.Parallel
