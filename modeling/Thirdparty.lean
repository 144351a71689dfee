import Thirdparty.Gflags.Names
import Thirdparty.Gflags.FlagsString
import Thirdparty.Gflags.CommandLine
import Thirdparty.Glog.ConsoleRun
import Thirdparty.Glog.FailureHook
import Thirdparty.Glog.Overtaking
import Thirdparty.Glog.VLogRun
import Thirdparty.Glog.LogFileRun
import Thirdparty.Core.Interrupt
