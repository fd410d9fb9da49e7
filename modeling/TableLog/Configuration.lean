import TableLog.Location
import TableLog.Metadata
import TableLog.Protocol

namespace TableLog

structure Configuration where
  metadata : Metadata
  protocol : Protocol
  properties : Properties
  root : Location
  version : Version
  deriving DecidableEq, Repr

namespace Configuration

def make (metadata : Metadata) (protocol : Protocol) (root : Location) (version : Version) :
    Outcome Configuration := do
  protocol.validate
  pure { metadata, protocol, properties := metadata.properties, root, version }

def domainMetadataSupported (c : Configuration) : Bool :=
  c.protocol.writerVersion == 7 && c.protocol.lists .domainMetadata

def rowTrackingSupported (c : Configuration) : Bool := c.protocol.supportsRowTracking

def rowTrackingEnabled (c : Configuration) : Bool :=
  c.rowTrackingSupported && c.properties.rowTracking.getD false

def rowTrackingSuspended (c : Configuration) : Bool := c.properties.rowTrackingSuspended.getD false

/-- Row ids are given out as soon as the feature is supported, so that
enabling it later finds no gaps. -/
def writesRowTracking (c : Configuration) : Bool :=
  c.rowTrackingSupported && !c.rowTrackingSuspended

/-- Files may not be removed. Writer versions up to 6 have the feature
without listing it, from 2 on. -/
def appendOnly (c : Configuration) : Bool :=
  (if c.protocol.writerVersion = 7 then c.protocol.lists .appendOnly else 2 ≤
    c.protocol.writerVersion) && c.properties.appendOnly.getD false

def changeDataFeed (c : Configuration) : Bool := c.properties.changeDataFeed.getD false

end Configuration

end TableLog
