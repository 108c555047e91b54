import Ds3.Basic
import Ds3.Strings
import Ds3.Numbers
import Ds3.HeaderParser
import Ds3.HeaderMemory.Model
import Ds3.HeaderMemory.Sound
import Ds3.HeaderMemory.Table
import Ds3.HeaderMemory.Response
import Ds3.Requests
import Ds3.Signer
import Ds3.Executor
import Ds3.Xml.Tree
import Ds3.Xml.Decode
import Ds3.Xml.Listings
import Ds3.Xml.Write
import Ds3.Xml.Parse
import Ds3.Xml.WellFormed
import Ds3.Xml.RoundTrip
import Ds3.Response
import Ds3.Bulk
import Ds3.Operations
import Ds3.ResponseMemory.Heap
import Ds3.ResponseMemory.Service
