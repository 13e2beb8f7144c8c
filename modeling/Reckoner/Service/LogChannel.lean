/-!
# Channels of the log

Every channel of the service's log is the root channel or stands below it.
-/

set_option autoImplicit false

namespace Reckoner.Service

def rootChannel : String := "calc_server"

def channelStem : String := rootChannel ++ "."

def logChannel (name : String) : String :=
  if name = rootChannel || channelStem.toList.isPrefixOf name.toList then name
  else channelStem ++ name

end Reckoner.Service
