import Striga.CmdQDrain
import Striga.CmdQExitCount
import Striga.Logging
import Striga.Greenev.CmdQueueStartup
import Striga.Greenev.CondCmdQWakeups
import Striga.Greenev.CondCmdQResults
import Striga.Greenev.CondCmdQDeadline
import Striga.Greenev.IoBufferTable
import Striga.Greenev.IoBufferBlock
import Striga.Greenev.IoThreadAccounting
import Striga.Greenev.IoThreadDeath
import Striga.Greenev.IoThreadConnect
import Striga.Greenev.IoThreadTeardown
import Striga.Greenev.IoThreadReadwrite
import Striga.Greenev.IoThreadClose
import Striga.Greenev.ApplicationExit
import Striga.Greenev.ApplicationTeardown
import Striga.Greenev.ApplicationDie
import Striga.Pyglev.ListenCmdSchedule
import Striga.Pyglev.EstSocketAccept
import Striga.Pyglev.GilDiscipline
import Striga.Pyglev.EventLoopExit
import Striga.Pyglev.EventLoopReferences
import Striga.Pyglev.EventLoopTraversal
import Striga.Pyglev.EventLoopTeardown
import Striga.AstChange.LineMap
import Striga.Greenev.ApplicationHang
import Striga.Greenev.ApplicationDtor
import Striga.Greenev.PyThreadEnding
import Striga.Pyglev.EventLoopCount
import Striga.Singlev.ApplicationCommands
import Striga.Singlev.ApplicationListen
import Striga.StrigaImport.StrigaImp
import Striga.AstChange.Main
import Striga.Greenev.ApplicationEnding
import Striga.Greenev.ProgramEnding
import Striga.Greenev.IoThreadDescriptors
import Striga.Greenev.IoThreadReading
import Striga.Pyglev.EventLoopReturn
import Striga.Singlev.ApplicationEnding
