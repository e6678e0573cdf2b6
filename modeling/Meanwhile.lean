import Meanwhile.Lib.LowBits
import Meanwhile.Lib.Cbc
import Meanwhile.Cipher.Bounds
import Meanwhile.Session.Auth
import Meanwhile.Session.Keys
import Meanwhile.Session.Login
import Meanwhile.Session.Stop
import Meanwhile.Session.Malformed
import Meanwhile.Channel.Ids
import Meanwhile.Channel.Incoming
import Meanwhile.Channel.Protocol
import Meanwhile.Channel.Dangling
import Meanwhile.Channel.Relay
import Meanwhile.Service.ImTypes
import Meanwhile.Service.Requests
import Meanwhile.Service.Opening
import Meanwhile.Service.Acks
import Meanwhile.Service.FtEnds
import Meanwhile.Service.Transfer
import Meanwhile.Service.Searches
import Meanwhile.Service.PlaceLife
import Meanwhile.Service.PlaceMembers
import Meanwhile.Service.AwareView
import Meanwhile.Service.AwareAttributes
import Meanwhile.Service.AwareSnapshots
import Meanwhile.Service.AwareWatches
import Meanwhile.Service.AwareLookups
import Meanwhile.Service.AwareCleared
import Meanwhile.Service.Truncated
import Meanwhile.StList.Ambiguity
import Meanwhile.StList.Wire
import Meanwhile.Common.Getters
import Meanwhile.Common.PutBuffer
import Meanwhile.Service.Leftovers
import Meanwhile.Service.ReferencesStopped
import Meanwhile.Lib.Quotient
import Meanwhile.Mpi.Digit
import Meanwhile.Mpi.Shift
import Meanwhile.Mpi.Sum
import Meanwhile.Mpi.Product
import Meanwhile.Mpi.Division
import Meanwhile.Mpi.Modular
import Meanwhile.Mpi.Binary
import Meanwhile.Cipher.DiffieHellman
import Meanwhile.Lib.Latch
import Meanwhile.Service.Conference
import Meanwhile.Service.ConferenceDeeds
import Meanwhile.Service.ConferenceRuns
import Meanwhile.Service.ConferenceTalk
import Meanwhile.Service.ConferenceMembers
